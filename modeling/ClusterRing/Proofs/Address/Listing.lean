import ClusterRing.Proofs.Readable

/-!
# Lists of addresses

A list of addresses is read piece by piece, and a separator between two lists keeps their pieces
apart. So two lists that are written one after the other are read one after the other
(`Address.parseList_append`), and the first fault decides. Addresses whose hosts hold no separators
are pieces of their own, however many separators stand around them (`Address.parseList_spread`).
-/

namespace ClusterRing

namespace Text

variable {isSeparator : Char → Bool} {piece gap tail : List Char}

/-! ### Pieces -/

theorem pieces_nil : pieces isSeparator [] = [] := by
  simp [pieces]

/-- Separators in front of a text make no pieces. -/
theorem pieces_gap_append (separates : ∀ char ∈ gap, isSeparator char = true)
    (rest : List Char) : pieces isSeparator (gap ++ rest) = pieces isSeparator rest := by
  induction gap with
  | nil => rfl
  | cons separator more ih =>
      rcases List.forall_mem_cons.mp separates with ⟨first, others⟩
      have apart := pieces_append_cons first [] (more ++ rest)
      rw [pieces_nil, List.nil_append, List.nil_append, ih others] at apart
      exact apart

/-- A piece ends at the gap behind it, or with the text. -/
theorem pieces_piece_append (nonempty : piece ≠ []) (solid : ∀ char ∈ piece, isSeparator char = false)
    (separates : ∀ char ∈ gap, isSeparator char = true) (ends : tail ≠ [] → gap ≠ []) :
    pieces isSeparator (piece ++ (gap ++ tail)) = piece :: pieces isSeparator tail := by
  cases gap with
  | nil =>
      have last : tail = [] := Decidable.byContradiction fun more => ends more rfl
      rw [last, List.nil_append, List.append_nil, pieces_eq_singleton nonempty solid, pieces_nil]
  | cons separator more =>
      rcases List.forall_mem_cons.mp separates with ⟨first, others⟩
      rw [List.cons_append, pieces_append_cons first, pieces_eq_singleton nonempty solid,
        pieces_gap_append others, List.singleton_append]

end Text

namespace Address

open Text

variable {lead : List Char} {entries : List (Address × List Char)} {nodes : List Address}

/-! ### Lists one after the other -/

theorem parseAll_append (first second : List String) :
    parseAll (first ++ second) = do return (← parseAll first) ++ (← parseAll second) :=
  List.mapM_append

/-- Two lists with a separator between them are read one after the other. -/
theorem parseList_append {separator : Char} (separated : separates separator = true)
    (left right : String) :
    parseList (left ++ String.singleton separator ++ right) =
      do return (← parseList left) ++ (← parseList right) := by
  have chars : (left ++ String.singleton separator ++ right).toList =
      left.toList ++ separator :: right.toList := by
    simp
  rw [parseList, chars, pieces_append_cons separated, List.map_append, parseAll_append]
  rfl

/-! ### Addresses among separators -/

/-- Nothing but separators. -/
def Gap (run : List Char) : Prop :=
  ∀ char ∈ run, separates char = true

/-- A host holds no separators. -/
def Compact (node : Address) : Prop :=
  ∀ char ∈ node.host.toList, separates char = false

/-- The texts of addresses, with a run of characters in front of them and one behind each. -/
def spread (lead : List Char) (entries : List (Address × List Char)) : List Char :=
  lead ++ entries.flatMap fun (node, gap) => node.text.toList ++ gap

theorem separates_eq_false_iff {char : Char} :
    separates char = false ↔ char ≠ ',' ∧ isBlank char = false := by
  simp [separates]

theorem Compact.parse_text {node : Address} (compact : node.Compact) :
    parse node.text = .ok node := by
  apply Address.parse_text
  intro char first
  exact (separates_eq_false_iff.mp (compact char (List.mem_of_head? first))).2

theorem Compact.solid {node : Address} (compact : node.Compact) :
    ∀ char ∈ node.text.toList, separates char = false := by
  intro char member
  rw [toList_text, List.mem_append, List.mem_cons] at member
  rcases member with inHost | rfl | inPort
  · exact compact char inHost
  · decide
  · have digit := Nat.isDigit_of_mem_toDigits (by decide) (by decide) inPort
    refine separates_eq_false_iff.mpr ⟨?_, not_blank_of_isDigit digit⟩
    rintro rfl
    exact absurd digit (by decide)

theorem text_ne_nil (node : Address) : node.text.toList ≠ [] := by
  simp [toList_text]

/-- Each address is a piece, and the gaps are none. -/
theorem pieces_entries (compact : ∀ entry ∈ entries, entry.1.Compact)
    (gaps : ∀ entry ∈ entries, Gap entry.2) (apart : ∀ entry ∈ entries.dropLast, entry.2 ≠ []) :
    pieces separates (entries.flatMap fun (node, gap) => node.text.toList ++ gap) =
      entries.map fun entry => entry.1.text.toList := by
  induction entries with
  | nil => exact pieces_nil
  | cons entry rest ih =>
      rcases List.forall_mem_cons.mp compact with ⟨first, compact⟩
      rcases List.forall_mem_cons.mp gaps with ⟨gap, gaps⟩
      rw [List.flatMap_cons, List.append_assoc, List.map_cons]
      cases rest with
      | nil =>
          rw [List.flatMap_nil, List.map_nil, ← pieces_nil]
          exact pieces_piece_append (text_ne_nil entry.1) first.solid gap fun more => absurd rfl more
      | cons next later =>
          rw [List.dropLast_cons_cons] at apart
          rcases List.forall_mem_cons.mp apart with ⟨behind, apart⟩
          rw [pieces_piece_append (text_ne_nil entry.1) first.solid gap fun _ => behind,
            ih compact gaps apart]

theorem parseAll_texts (readable : ∀ node ∈ nodes, parse node.text = .ok node) :
    parseAll (nodes.map text) = .ok nodes := by
  induction nodes with
  | nil => rfl
  | cons node rest ih =>
      rcases List.forall_mem_cons.mp readable with ⟨first, others⟩
      have rest_read : (rest.map text).mapM parse = .ok rest := ih others
      rw [parseAll, List.map_cons, List.mapM_cons, first, rest_read]
      rfl

/-- Addresses among separators are read in order. -/
theorem parseList_spread (leads : Gap lead) (compact : ∀ entry ∈ entries, entry.1.Compact)
    (gaps : ∀ entry ∈ entries, Gap entry.2) (apart : ∀ entry ∈ entries.dropLast, entry.2 ≠ []) :
    parseList (String.ofList (spread lead entries)) = .ok (entries.map (·.1)) := by
  have texts : (entries.map fun entry => entry.1.text.toList).map String.ofList =
      (entries.map (·.1)).map text := by
    simp
  rw [parseList, String.toList_ofList, spread, pieces_gap_append leads,
    pieces_entries compact gaps apart, texts]
  apply parseAll_texts
  intro node member
  rcases List.mem_map.mp member with ⟨entry, listed, rfl⟩
  exact (compact entry listed).parse_text

/--
A comma or a blank character between two lists has them read one after the other: the addresses of
the second follow those of the first, and of two faults the first is found. Addresses whose hosts
hold no such character are read in order, with their repetitions, from their texts with any runs of
separators around them, if each but the last has a separator behind it.
-/
theorem lists_are_read_by_parts :
    (∀ (left right : String) (separator : Char), separator = ',' ∨ isBlank separator = true →
      (∀ first second, parseList left = .ok first → parseList right = .ok second →
        parseList (left ++ String.singleton separator ++ right) = .ok (first ++ second)) ∧
      (∀ fault, parseList left = .error fault →
        parseList (left ++ String.singleton separator ++ right) = .error fault) ∧
      (∀ first fault, parseList left = .ok first → parseList right = .error fault →
        parseList (left ++ String.singleton separator ++ right) = .error fault)) ∧
    (∀ lead entries, Gap lead → (∀ entry ∈ entries, Gap entry.2) →
      (∀ entry ∈ entries.dropLast, entry.2 ≠ []) →
      (∀ entry ∈ entries, ∀ char ∈ entry.1.host.toList, char ≠ ',' ∧ isBlank char = false) →
        parseList (String.ofList (spread lead entries)) = .ok (entries.map (·.1))) := by
  constructor
  · intro left right separator separated
    have separated : separates separator = true := by simpa [separates] using separated
    have parts := parseList_append separated left right
    refine ⟨?_, ?_, ?_⟩
    · intro first second read read'
      rw [parts, read, read']
      rfl
    · intro fault refused
      rw [parts, refused]
      rfl
    · intro first fault read refused
      rw [parts, read, refused]
      rfl
  · intro lead entries leads gaps apart plain
    refine parseList_spread leads ?_ gaps apart
    intro entry listed char member
    exact separates_eq_false_iff.mpr (plain entry listed char member)

/-- The first of two faults is found, and a list with gaps everywhere is read in order. -/
theorem finds_first_fault_and_reads_among_gaps :
    let node : Address := ⟨"a", 1, by decide⟩
    let other : Address := ⟨"é:", 80, by decide⟩
    let entries := [(node, [',', '\u2003', ',']), (other, ['\n']), (node, [])]
    parseList ("a:1,b" ++ String.singleton '\u3000' ++ "c:x") = .error (.missingPort "b") ∧
      String.ofList (spread [' ', ','] entries) = " ,a:1,\u2003,é::80\na:1" ∧
      parseList (String.ofList (spread [' ', ','] entries)) = .ok [node, other, node] := by
  intro node other entries
  rcases lists_are_read_by_parts with ⟨parts, listed⟩
  refine ⟨?_, by decide, ?_⟩
  · have refused : parseList "a:1,b" = .error (.missingPort "b") := by rfl
    exact (parts "a:1,b" "c:x" '\u3000' (.inr (by decide))).2.1 _ refused
  · refine listed [' ', ','] entries ?_ ?_ ?_ ?_
    · simp [Gap, separates, isBlank, blankRuns]
    · simp [entries, Gap, separates, isBlank, blankRuns]
    · simp [entries]
    · simp [entries, node, other, isBlank, blankRuns]

end Address

end ClusterRing
