import ClusterRing.Event.Script
import ClusterRing.Proofs.Event.Document

/-!
# Scripts of events

A script of the texts of events, each on a line, with blank lines and comments
anywhere among them, is read as those events (`readLines_spells`). A script cannot
be read when a line is neither a comment nor an event, and the first such line is
the one that is named (`readLines_eq_error_iff`).
-/

namespace ClusterRing.Script

open Text (isBlank lines dropCarriageReturn)

/-- A line of blank characters only, or of a number sign after such characters. -/
def Filler (line : List Char) : Prop :=
  ∃ indent rest, line = indent ++ rest ∧ (∀ char ∈ indent, isBlank char = true) ∧
    (rest = [] ∨ ∃ comment, rest = '#' :: comment)

/-- A line that is neither a comment nor the text of an event. -/
def Unreadable (line : List Char) : Prop :=
  ¬Filler line ∧ ∀ event, Event.parse? line ≠ some event

/-- What can end a line. -/
def lineEndings : List (List Char) :=
  [['\n'], ['\r', '\n']]

/--
Scripts that spell events: a line for each event in order, and fillers anywhere among
them. Only the last line may be without an ending.
-/
inductive Spells : List Char → List Event → Prop where
  | lastFiller {line : List Char} (filler : Filler line) (whole : '\n' ∉ line) : Spells line []
  | lastEvent (event : Event) : Spells event.toJson.render.toList [event]
  | filler {line ending rest : List Char} {events : List Event} (filler : Filler line)
      (whole : '\n' ∉ line) (ends : ending ∈ lineEndings) (spells : Spells rest events) :
      Spells (line ++ ending ++ rest) events
  | event {ending rest : List Char} {events : List Event} (event : Event)
      (ends : ending ∈ lineEndings) (spells : Spells rest events) :
      Spells (event.toJson.render.toList ++ ending ++ rest) (event :: events)

/-! ### Comments -/

theorem filler_nil : Filler [] :=
  ⟨[], [], rfl, by simp, .inl rfl⟩

theorem filler_cons_of_blank {char : Char} {line : List Char} (blank : isBlank char = true) :
    Filler (char :: line) ↔ Filler line := by
  constructor
  · rintro ⟨indent, rest, split, blanks, ends⟩
    cases indent with
    | nil =>
        rcases ends with rfl | ⟨comment, rfl⟩
        · exact nomatch split
        · obtain ⟨rfl, -⟩ := List.cons.inj split
          exact absurd blank (by decide)
    | cons other indent =>
        obtain ⟨rfl, rfl⟩ := List.cons.inj split
        exact ⟨indent, rest, rfl, fun char member => blanks char (by simp [member]), ends⟩
  · rintro ⟨indent, rest, rfl, blanks, ends⟩
    refine ⟨char :: indent, rest, rfl, ?_, ends⟩
    simpa [blank] using blanks

theorem filler_cons_of_not_blank {char : Char} {line : List Char} (solid : isBlank char = false) :
    Filler (char :: line) ↔ char = '#' := by
  constructor
  · rintro ⟨indent, rest, split, blanks, ends⟩
    cases indent with
    | nil =>
        rcases ends with rfl | ⟨comment, rfl⟩
        · exact nomatch split
        · exact (List.cons.inj split).1
    | cons other indent =>
        obtain ⟨rfl, -⟩ := List.cons.inj split
        simp [solid] at blanks
  · rintro rfl
    exact ⟨[], _, rfl, by simp, .inr ⟨line, rfl⟩⟩

/-- The lines that are passed over are the blank ones and the comments. -/
theorem isComment_iff_filler {line : List Char} : isComment line = true ↔ Filler line := by
  induction line with
  | nil => exact iff_of_true rfl filler_nil
  | cons char rest ih =>
      cases blank : isBlank char with
      | true =>
          rw [filler_cons_of_blank blank, ← ih, isComment, Text.trim_cons_of_blank blank]
          rfl
      | false =>
          rw [filler_cons_of_not_blank blank, isComment, Text.trim_cons_of_not_blank blank]
          simp

theorem Filler.of_prefix {line front : List Char} (filler : Filler line) (begins : front <+: line) :
    Filler front := by
  induction front generalizing line with
  | nil => exact filler_nil
  | cons char rest ih =>
      rcases begins with ⟨more, rfl⟩
      cases blank : isBlank char with
      | true =>
          rw [List.cons_append, filler_cons_of_blank blank] at filler
          rw [filler_cons_of_blank blank]
          exact ih filler ⟨more, rfl⟩
      | false =>
          rw [List.cons_append, filler_cons_of_not_blank blank] at filler
          rwa [filler_cons_of_not_blank blank]

theorem not_filler_render (event : Event) : ¬Filler event.toJson.render.toList := by
  rcases event.exists_render_eq_cons with ⟨rest, written⟩
  rw [written, filler_cons_of_not_blank (by decide)]
  decide

/-! ### Lines -/

/-- A line is what comes before its ending, without the carriage return that may end it. -/
theorem lines_append_ending {line ending : List Char} (whole : '\n' ∉ line)
    (ends : ending ∈ lineEndings) (rest : List Char) :
    ∃ front, lines (line ++ ending ++ rest) = front :: lines rest ∧ front <+: line ∧
      ('\r' ∉ line → front = line) := by
  simp [lineEndings] at ends
  rcases ends with rfl | rfl
  · refine ⟨dropCarriageReturn line, ?_, ?_, fun absent => ?_⟩
    · rw [List.append_assoc, List.singleton_append, Text.lines_append_cons whole]
    · unfold dropCarriageReturn
      split
      · exact line.dropLast_prefix
      · exact List.prefix_rfl
    · exact if_neg fun last => absent (List.mem_of_getLast? last)
  · refine ⟨line, ?_, List.prefix_rfl, fun _ => rfl⟩
    have longer : '\n' ∉ line ++ ['\r'] := by simp [whole]
    have cut := Text.lines_append_cons longer rest
    simpa [dropCarriageReturn] using cut

/-! ### Reading -/

variable {number : Nat} {line : List Char} {rest : List (List Char)}

theorem readLines_cons_of_filler (filler : Filler line) :
    readLines number (line :: rest) = readLines (number + 1) rest := by
  rw [readLines, if_pos (isComment_iff_filler.mpr filler)]

theorem readLines_cons_of_event {event : Event} (solid : ¬Filler line)
    (read : Event.parse? line = some event) :
    readLines number (line :: rest) = (readLines (number + 1) rest).map (event :: ·) := by
  simp [readLines, isComment_iff_filler, solid, read]

theorem readLines_cons_of_unreadable (unreadable : Unreadable line) :
    readLines number (line :: rest) = .error number := by
  have none : Event.parse? line = none := Option.eq_none_iff_forall_ne_some.mpr unreadable.2
  simp [readLines, isComment_iff_filler, unreadable.1, none]

/-- The events of a script do not depend on the number of its first line. -/
theorem readLines_spells {text : List Char} {events : List Event} (spells : Spells text events)
    (readable : ∀ event ∈ events, event.Readable) (number : Nat) :
    readLines number (lines text) = .ok events := by
  induction spells generalizing number with
  | @lastFiller line filler whole =>
      by_cases nonempty : line = []
      · rw [nonempty]
        rfl
      · rw [Text.lines_eq_singleton whole nonempty, readLines_cons_of_filler filler]
        rfl
  | lastEvent event =>
      rcases event.exists_render_eq_cons with ⟨rest, written⟩
      rw [Text.lines_eq_singleton (event.control_not_mem_render (by decide)) (by simp [written]),
        readLines_cons_of_event (not_filler_render event) (readable event (by simp)).parse?_render]
      rfl
  | filler filler whole ends spells ih =>
      rcases lines_append_ending whole ends _ with ⟨front, cut, begins, -⟩
      rw [cut, readLines_cons_of_filler (filler.of_prefix begins)]
      exact ih readable _
  | event event ends spells ih =>
      have read := (readable event (by simp)).parse?_render
      have others := ih fun other member => readable other (by simp [member])
      have whole : '\n' ∉ event.toJson.render.toList := event.control_not_mem_render (by decide)
      rcases lines_append_ending whole ends _ with ⟨front, cut, -, same⟩
      rw [cut, same (event.control_not_mem_render (by decide)),
        readLines_cons_of_event (not_filler_render event) read, others]
      rfl

/-- A line that can be read passes the numbers of the later ones on. -/
theorem readLines_cons_of_readable (readable : ¬Unreadable line) (number other : Nat) :
    readLines number (line :: rest) = .error other ↔
      readLines (number + 1) rest = .error other := by
  by_cases filler : Filler line
  · rw [readLines_cons_of_filler filler]
  · have read : ∃ event, Event.parse? line = some event := by
      simpa [Unreadable, filler] using readable
    rcases read with ⟨event, read⟩
    rw [readLines_cons_of_event filler read]
    cases readLines (number + 1) rest <;> simp [Except.map]

/-- Reading fails with the number of the first line that cannot be read. -/
theorem readLines_eq_error_iff {all : List (List Char)} {number other : Nat} :
    readLines number all = .error other ↔
      ∃ before line after, all = before ++ line :: after ∧ other = number + before.length ∧
        Unreadable line ∧ ∀ earlier ∈ before, ¬Unreadable earlier := by
  induction all generalizing number with
  | nil => simp [readLines]
  | cons first rest ih =>
      by_cases unreadable : Unreadable first
      · rw [readLines_cons_of_unreadable unreadable, Except.error.injEq]
        constructor
        · rintro rfl
          exact ⟨[], first, rest, rfl, rfl, unreadable, by simp⟩
        · rintro ⟨before, line, after, split, rfl, -, earlier⟩
          cases before with
          | nil => rfl
          | cons first' before =>
              obtain ⟨rfl, -⟩ := List.cons.inj split
              exact absurd unreadable (earlier first (by simp))
      · rw [readLines_cons_of_readable unreadable, ih]
        constructor
        · rintro ⟨before, line, after, rfl, rfl, stops, earlier⟩
          refine ⟨first :: before, line, after, rfl, ?_, stops, ?_⟩
          · simp
            omega
          · simpa [unreadable] using earlier
        · rintro ⟨before, line, after, split, rfl, stops, earlier⟩
          cases before with
          | nil =>
              obtain ⟨rfl, -⟩ := List.cons.inj split
              exact absurd stops unreadable
          | cons first' before =>
              obtain ⟨rfl, rfl⟩ := List.cons.inj split
              refine ⟨before, line, after, rfl, ?_, stops, fun other member =>
                earlier other (by simp [member])⟩
              simp
              omega

theorem readLines_fails_iff {all : List (List Char)} {number : Nat} :
    (∃ other, readLines number all = .error other) ↔ ∃ line ∈ all, Unreadable line := by
  induction all generalizing number with
  | nil => simp [readLines]
  | cons first rest ih =>
      by_cases unreadable : Unreadable first
      · simp [readLines_cons_of_unreadable unreadable, unreadable]
      · simp [readLines_cons_of_readable unreadable, ih, unreadable]

/--
A script that spells events is read as those events. Any script cannot be read exactly
when a line is neither a comment nor an event, and the number that is reported is the
number of the first such line, where all lines are counted from one.
-/
theorem reads_spelled_and_locates_unreadable :
    (∀ text events, Spells text events → (∀ event ∈ events, event.Readable) →
      parse (String.ofList text) = .ok events) ∧
    ∀ script, ((∃ number, parse script = .error number) ↔
        ∃ line ∈ lines script.toList, Unreadable line) ∧
      ∀ number, parse script = .error number ↔
        ∃ before line after, lines script.toList = before ++ line :: after ∧
          number = before.length + 1 ∧ Unreadable line ∧
          ∀ earlier ∈ before, ¬Unreadable earlier := by
  constructor
  · intro text events spells readable
    rw [parse, String.toList_ofList]
    exact readLines_spells spells readable 1
  · refine fun script => ⟨readLines_fails_iff, fun number => ?_⟩
    simp only [Nat.add_comm _ 1]
    exact readLines_eq_error_iff

/-- A host holds a quote, a backslash and a line feed after a comment; a third line is no event. -/
theorem reads_odd_host_and_locates_third_line :
    let node : Address := ⟨"\"\\\n", 80, by decide⟩
    let event : Event := .topology [node] []
    let script := " # nodes\r\n" ++
      "\x7b\"topology\":\x7b\"attach\":[\"\\\"\\\\\\n:80\"],\"detach\":[]\x7d\x7d\r\n\t"
    let text := " # nodes".toList ++ ['\r', '\n'] ++
      (event.toJson.render.toList ++ ['\r', '\n'] ++ "\t".toList)
    String.ofList text = script ∧ Spells text [event] ∧ event.Readable ∧
      parse script = .ok [event] ∧ parse "\n# nodes\n\x7b\x7d\n" = .error 3 := by
  intro node event script text
  have written : String.ofList text = script := by decide +kernel
  have indented : Filler " # nodes".toList := isComment_iff_filler.mp (by decide)
  have blank : Filler "\t".toList := isComment_iff_filler.mp (by decide)
  have spells : Spells text [event] := by
    apply Spells.filler indented (by decide) (by decide)
    exact Spells.event event (by decide) (Spells.lastFiller blank (by decide))
  have readable : event.Readable := by
    have read : node.Readable := ⟨"\"\\\n:80", rfl⟩
    simpa [Event.Readable, event, Event.addressLists] using read
  have unreadable : Unreadable "\x7b\x7d".toList := by
    refine ⟨fun filler => absurd (isComment_iff_filler.mpr filler) (by decide), ?_⟩
    have legible : (Json.object []).Legible := Json.legible_object_iff.mpr (by simp)
    have written : (Json.object []).render.toList = "\x7b\x7d".toList := by decide
    have spelled := Json.parse?_render legible
    rw [written] at spelled
    intro event read
    rw [Event.parse?, spelled] at read
    cases read
  refine ⟨written, spells, readable, ?_, ?_⟩
  · rw [← written]
    exact reads_spelled_and_locates_unreadable.1 text [event] spells (by simpa using readable)
  · refine ((reads_spelled_and_locates_unreadable.2 _).2 3).mpr
      ⟨["".toList, "# nodes".toList], "\x7b\x7d".toList, [], ?_, rfl, unreadable, ?_⟩
    · decide +kernel
    · have fillers : ∀ line ∈ ["".toList, "# nodes".toList], isComment line = true := by decide
      intro line member unreadable
      exact unreadable.1 (isComment_iff_filler.mp (fillers line member))

end ClusterRing.Script
