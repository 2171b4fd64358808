/-!
# Text cut at separators

A text is cut into the pieces between separators, into the parts around the last
occurrence of a mark, and into lines.
-/

namespace ClusterRing.Text

/-! ### Pieces -/

/-- The non-empty pieces of a text between separators, in order. -/
def pieces (isSeparator : Char → Bool) (text : List Char) : List (List Char) :=
  (text.splitOnP isSeparator).filter fun piece => !piece.isEmpty

/-- A separator between two texts keeps their pieces apart. -/
theorem pieces_append_cons {isSeparator : Char → Bool} {separator : Char}
    (separates : isSeparator separator = true) (left right : List Char) :
    pieces isSeparator (left ++ separator :: right) =
      pieces isSeparator left ++ pieces isSeparator right := by
  simp [pieces, List.splitOnP_append_cons _ _ separates]

/-- A non-empty text without separators is its own only piece. -/
theorem pieces_eq_singleton {isSeparator : Char → Bool} {text : List Char} (nonempty : text ≠ [])
    (solid : ∀ char ∈ text, isSeparator char = false) : pieces isSeparator text = [text] := by
  simp [pieces, List.splitOnP_eq_singleton solid, nonempty]

/-! ### The last mark -/

/-- The parts of a text before and after the last occurrence of a mark. -/
def splitAtLast? (mark : Char) : List Char → Option (List Char × List Char)
  | [] => none
  | char :: rest =>
    match splitAtLast? mark rest with
    | some (before, after) => some (char :: before, after)
    | none => if char = mark then some ([], rest) else none

/-- The last mark of a text separates what comes before it from what comes after. -/
theorem split_unique {mark : Char} {before after before' after' : List Char}
    (absent : mark ∉ after) (absent' : mark ∉ after')
    (same : before ++ mark :: after = before' ++ mark :: after') :
    before = before' ∧ after = after' := by
  induction before generalizing before' with
  | nil =>
      cases before' with
      | nil => simpa using same
      | cons first rest =>
          simp only [List.nil_append, List.cons_append, List.cons.injEq] at same
          exact absurd (by simp [same.2]) absent
  | cons first rest ih =>
      cases before' with
      | nil =>
          simp only [List.nil_append, List.cons_append, List.cons.injEq] at same
          exact absurd (by simp [← same.2]) absent'
      | cons first' rest' =>
          simp only [List.cons_append, List.cons.injEq] at same
          obtain ⟨rfl, same⟩ := same
          obtain ⟨rfl, rfl⟩ := ih same
          exact ⟨rfl, rfl⟩

theorem splitAtLast?_eq_none_iff {mark : Char} {text : List Char} :
    splitAtLast? mark text = none ↔ mark ∉ text := by
  induction text with
  | nil => simp [splitAtLast?]
  | cons char rest ih =>
      rw [splitAtLast?, List.mem_cons]
      cases found : splitAtLast? mark rest with
      | some parts => simp_all
      | none => by_cases same : char = mark <;> grind

theorem eq_of_splitAtLast?_eq_some {mark : Char} {text before after : List Char}
    (found : splitAtLast? mark text = some (before, after)) :
    text = before ++ mark :: after ∧ mark ∉ after := by
  induction text generalizing before with
  | nil => simp [splitAtLast?] at found
  | cons char rest ih =>
      rw [splitAtLast?] at found
      cases parts : splitAtLast? mark rest with
      | some parts' =>
          obtain ⟨before', after'⟩ := parts'
          simp only [parts, Option.some.injEq, Prod.mk.injEq] at found
          obtain ⟨rfl, rfl⟩ := found
          obtain ⟨rest_eq, absent⟩ := ih parts
          exact ⟨by simp [rest_eq], absent⟩
      | none =>
          simp only [parts] at found
          split at found
          · next same =>
              simp only [Option.some.injEq, Prod.mk.injEq] at found
              obtain ⟨rfl, rfl⟩ := found
              exact ⟨by simp [same], splitAtLast?_eq_none_iff.mp parts⟩
          · exact nomatch found

/-- A text is split at a mark exactly when the mark is between its parts for the last time. -/
theorem splitAtLast?_eq_some_iff {mark : Char} {text before after : List Char} :
    splitAtLast? mark text = some (before, after) ↔
      text = before ++ mark :: after ∧ mark ∉ after := by
  refine ⟨eq_of_splitAtLast?_eq_some, ?_⟩
  rintro ⟨rfl, absent⟩
  cases found : splitAtLast? mark (before ++ mark :: after) with
  | none => simp [splitAtLast?_eq_none_iff] at found
  | some parts =>
      obtain ⟨before', after'⟩ := parts
      obtain ⟨whole, absent'⟩ := eq_of_splitAtLast?_eq_some found
      obtain ⟨rfl, rfl⟩ := split_unique absent absent' whole
      rfl

/-! ### Lines -/

/-- A line without the carriage return that may end it. -/
def dropCarriageReturn (line : List Char) : List Char :=
  if line.getLast? = some '\r' then line.dropLast else line

/--
The lines of a text. A line ends with a line feed, or with a carriage return and
a line feed; what follows the last line feed is a line as it stands, unless it is
empty.
-/
def lines (text : List Char) : List (List Char) :=
  let cut := text.splitOn '\n'
  cut.dropLast.map dropCarriageReturn ++ cut.getLast?.toList.filter fun line => !line.isEmpty

theorem splitOn_eq_singleton {mark : Char} {text : List Char} (absent : mark ∉ text) :
    text.splitOn mark = [text] := by
  rw [List.splitOn_eq_splitOnP, List.splitOnP_eq_singleton]
  intro char member
  simpa using fun same : char = mark => absent (same ▸ member)

/-- What comes before the first line feed is the first line. -/
theorem lines_append_cons {line : List Char} (whole : '\n' ∉ line) (rest : List Char) :
    lines (line ++ '\n' :: rest) = dropCarriageReturn line :: lines rest := by
  have cut : (line ++ '\n' :: rest).splitOn '\n' = line :: rest.splitOn '\n' := by
    rw [List.splitOn_eq_splitOnP, List.splitOnP_append_cons _ _ (by simp),
      ← List.splitOn_eq_splitOnP, splitOn_eq_singleton whole]
    rfl
  have more : rest.splitOn '\n' ≠ [] := List.splitOn_ne_nil '\n' rest
  simp [lines, cut, List.dropLast_cons_of_ne_nil more, List.getLast?_cons,
    List.getLast?_eq_some_getLast more]

theorem lines_eq_singleton {line : List Char} (whole : '\n' ∉ line) (nonempty : line ≠ []) :
    lines line = [line] := by
  simp [lines, splitOn_eq_singleton whole, nonempty]

end ClusterRing.Text
