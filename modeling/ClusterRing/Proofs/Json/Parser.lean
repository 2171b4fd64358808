import ClusterRing.Json.Parser
import ClusterRing.Proofs.Json.Token

/-!
# Values are read back

The tokens of a value come back from its text (`lexes_toTokens`), and the value
from its tokens, whatever containers are open around it (`foldlM_toTokens`).
-/

namespace ClusterRing.Json

/-! ### From text to tokens -/

/-- Tokens are read from their text and leave what follows, unless that goes on with a numeral. -/
def Lexes (tokens : List Token) : Prop :=
  ∀ rest, Ends rest → tokens? (tokens.flatMap Token.text ++ rest) = (tokens? rest).map (tokens ++ ·)

theorem lexes_nil : Lexes [] := by
  intro rest ends
  simp

theorem lexes_singleton {token : Token} (legible : token.Legible) : Lexes [token] := by
  intro rest ends
  simpa using tokens?_text_append legible fun _ => ends

theorem legible_of_mark {token : Token} (mark : token.isNumber = false) : token.Legible := by
  cases token with
  | number numeral => exact nomatch mark
  | _ => trivial

theorem ends_text {token : Token} (mark : token.isNumber = false) (rest : List Char) :
    Ends (token.text ++ rest) := by
  rcases token.head?_text (legible_of_mark mark) with ⟨first, others, written, -, begins⟩
  simp [Ends, written, begins, mark]

variable {left right : List Token} {token : Token}

theorem Lexes.cons (lexes : Lexes right) (mark : token.isNumber = false) :
    Lexes (token :: right) := by
  intro rest ends
  have first : tokens? (token.text ++ (right.flatMap Token.text ++ rest)) =
      (tokens? (right.flatMap Token.text ++ rest)).map (token :: ·) :=
    tokens?_text_append (legible_of_mark mark) (by simp [mark])
  rw [List.flatMap_cons, List.append_assoc, first, lexes rest ends]
  simp [Function.comp_def]

theorem Lexes.append_cons (first : Lexes left) (second : Lexes (token :: right))
    (mark : token.isNumber = false) : Lexes (left ++ token :: right) := by
  intro rest ends
  have splits := ends_text mark (right.flatMap Token.text ++ rest)
  rw [← List.append_assoc, ← List.flatMap_cons] at splits
  rw [List.flatMap_append, List.append_assoc, first _ splits, second rest ends]
  simp [Function.comp_def]

theorem itemTokens_cons_cons (item other : Json) (rest : List Json) :
    itemTokens (item :: other :: rest) =
      toTokens item ++ .comma :: itemTokens (other :: rest) := rfl

theorem memberTokens_cons_cons (name : Option String) (value : Json)
    (other : Option String × Json) (rest : List (Option String × Json)) :
    memberTokens ((name, value) :: other :: rest) =
      .string name :: .colon :: toTokens value ++ .comma :: memberTokens (other :: rest) := rfl

/-- A value whose tokens are read as what they are. -/
def Legible (value : Json) : Prop :=
  ∀ token ∈ value.toTokens, token.Legible

theorem legible_number_iff {numeral : Numeral} :
    (number numeral).Legible ↔ (Token.number numeral).Legible := by
  simp [Legible, toTokens]

theorem legible_string (content : Option String) : (string content).Legible := by
  simp [Legible, toTokens, Token.Legible]

theorem legible_array_iff {items : List Json} :
    (array items).Legible ↔ ∀ item ∈ items, item.Legible := by
  have each : (∀ token ∈ itemTokens items, token.Legible) ↔ ∀ item ∈ items, item.Legible := by
    induction items with
    | nil => simp [itemTokens]
    | cons item rest ih =>
        cases rest with
        | nil => simp [itemTokens, Legible]
        | cons other rest =>
            rw [List.forall_mem_cons, ← ih, itemTokens_cons_cons, List.forall_mem_append,
              List.forall_mem_cons]
            simp [Token.Legible, Legible]
  rw [← each]
  simp [Legible, toTokens, or_imp, forall_and, Token.Legible]

theorem legible_object_iff {members : List (Option String × Json)} :
    (object members).Legible ↔ ∀ member ∈ members, member.2.Legible := by
  have each : (∀ token ∈ memberTokens members, token.Legible) ↔
      ∀ member ∈ members, member.2.Legible := by
    induction members with
    | nil => simp [memberTokens]
    | cons member rest ih =>
        rcases member with ⟨name, value⟩
        cases rest with
        | nil => simp [memberTokens, Legible, Token.Legible]
        | cons other rest =>
            rw [List.forall_mem_cons, ← ih, memberTokens_cons_cons, List.forall_mem_append,
              List.forall_mem_cons, List.forall_mem_cons, List.forall_mem_cons]
            simp [Token.Legible, Legible]
  rw [← each]
  simp [Legible, toTokens, or_imp, forall_and, Token.Legible]

mutual

theorem lexes_toTokens (value : Json) (legible : value.Legible) : Lexes (toTokens value) := by
  match value with
  | .array items =>
      rw [toTokens]
      refine Lexes.cons ?_ rfl
      refine Lexes.append_cons ?_ (lexes_singleton trivial) rfl
      exact lexes_itemTokens items (legible_array_iff.mp legible)
  | .object members =>
      rw [toTokens]
      refine Lexes.cons ?_ rfl
      refine Lexes.append_cons ?_ (lexes_singleton trivial) rfl
      exact lexes_memberTokens members (legible_object_iff.mp legible)
  | .number numeral => exact lexes_singleton (legible_number_iff.mp legible)
  | .null | .bool _ | .string _ => exact lexes_singleton trivial

theorem lexes_itemTokens (items : List Json) (legible : ∀ item ∈ items, item.Legible) :
    Lexes (itemTokens items) := by
  match items with
  | [] => exact lexes_nil
  | [item] => exact lexes_toTokens item (legible item (by simp))
  | item :: other :: rest =>
      rw [itemTokens_cons_cons]
      refine Lexes.append_cons ?_ (Lexes.cons ?_ rfl) rfl
      · exact lexes_toTokens item (legible item (by simp))
      · exact lexes_itemTokens (other :: rest) (List.forall_mem_cons.mp legible).2

theorem lexes_memberTokens (members : List (Option String × Json))
    (legible : ∀ member ∈ members, member.2.Legible) : Lexes (memberTokens members) := by
  match members with
  | [] => exact lexes_nil
  | [(name, value)] =>
      refine Lexes.cons (Lexes.cons ?_ rfl) rfl
      exact lexes_toTokens value (legible (name, value) (by simp))
  | (name, value) :: other :: rest =>
      rw [memberTokens_cons_cons]
      refine Lexes.cons (Lexes.cons (Lexes.append_cons ?_ (Lexes.cons ?_ rfl) rfl) rfl) rfl
      · exact lexes_toTokens value (legible (name, value) (by simp))
      · exact lexes_memberTokens (other :: rest) (List.forall_mem_cons.mp legible).2

end

/-! ### From tokens to the value -/

/-- Tokens take the reading from one point to another. -/
def Leads (start : Progress) (tokens : List Token) (stop : Progress) : Prop :=
  tokens.foldlM Progress.step? start = some stop

variable {start next stop : Progress} {containers outer : List Container}

theorem Leads.cons (step : start.step? token = some next) (rest : Leads next right stop) :
    Leads start (token :: right) stop := by
  simpa [Leads, step] using rest

theorem Leads.append (first : Leads start left next) (second : Leads next right stop) :
    Leads start (left ++ right) stop := by
  simp [Leads] at first second
  simp [Leads, first, second]

/-- The first item of an array is read as the next one after none. -/
theorem Leads.firstItem (leads : Leads ⟨.value, .array [] :: containers⟩ (token :: right) stop)
    (begins : token ≠ .rightBracket) : Leads ⟨.firstItem, containers⟩ (token :: right) stop := by
  cases token with
  | rightBracket => exact absurd rfl begins
  | _ => exact leads

/-- A value begins with a token that cannot end an array. -/
theorem toTokens_eq_cons (value : Json) :
    ∃ token rest, toTokens value = token :: rest ∧ token ≠ .rightBracket := by
  cases value <;> simp [toTokens]

theorem itemTokens_eq_cons {items : List Json} (nonempty : items ≠ []) :
    ∃ token others, itemTokens items = token :: others ∧ token ≠ .rightBracket := by
  match items with
  | [item] => exact toTokens_eq_cons item
  | item :: other :: rest =>
      rcases toTokens_eq_cons item with ⟨token, others, written, begins⟩
      exact ⟨token, _, by rw [itemTokens_cons_cons, written]; rfl, begins⟩

mutual

theorem leads_toTokens (value : Json) (containers : List Container) :
    Leads ⟨.value, containers⟩ (toTokens value) ⟨.afterValue value, containers⟩ := by
  match value with
  | .null | .bool _ | .number _ | .string _ | .array [] | .object [] => rfl
  | .array (item :: rest) =>
      have nonempty : item :: rest ≠ [] := by simp
      have items := leads_itemTokens (item :: rest) nonempty [] containers
      rcases itemTokens_eq_cons nonempty with ⟨token, others, written, begins⟩
      rw [toTokens, List.cons_append]
      rw [written, List.cons_append] at items ⊢
      exact Leads.cons rfl (items.firstItem begins)
  | .object (member :: rest) =>
      have members := leads_memberTokens (member :: rest) (by simp) [] containers
      rw [toTokens, List.cons_append]
      refine Leads.cons rfl ?_
      cases rest <;> exact members

theorem leads_itemTokens (items : List Json) (nonempty : items ≠ []) (done : List Json)
    (outer : List Container) :
    Leads ⟨.value, .array done :: outer⟩ (itemTokens items ++ [.rightBracket])
      ⟨.afterValue (.array (done.reverse ++ items)), outer⟩ := by
  match items with
  | [item] =>
      apply (leads_toTokens item _).append
      simp [Leads, Progress.step?, closeValue?]
  | item :: other :: rest =>
      have more := leads_itemTokens (other :: rest) (by simp) (item :: done) outer
      simp only [List.reverse_cons, List.append_assoc, List.singleton_append] at more
      rw [itemTokens_cons_cons, List.append_assoc]
      exact (leads_toTokens item _).append (Leads.cons rfl more)

theorem leads_memberTokens (members : List (Option String × Json)) (nonempty : members ≠ [])
    (done : List (Option String × Json)) (outer : List Container) :
    Leads ⟨.name done, outer⟩ (memberTokens members ++ [.rightBrace])
      ⟨.afterValue (.object (done.reverse ++ members)), outer⟩ := by
  match members with
  | [(name, value)] =>
      refine Leads.cons rfl (Leads.cons rfl ?_)
      apply (leads_toTokens value _).append
      simp [Leads, Progress.step?, closeValue?]
  | (name, value) :: other :: rest =>
      have more := leads_memberTokens (other :: rest) (by simp) ((name, value) :: done) outer
      simp only [List.reverse_cons, List.append_assoc, List.singleton_append] at more
      rw [memberTokens_cons_cons, List.append_assoc]
      refine Leads.cons rfl (Leads.cons rfl ?_)
      exact (leads_toTokens value _).append (Leads.cons rfl more)

end

theorem ofTokens?_toTokens (value : Json) : ofTokens? value.toTokens = some value := by
  have leads := leads_toTokens value []
  rw [Leads] at leads
  simp [ofTokens?, Progress.start, leads, Progress.result?]

/-- A value is read back from its text. -/
theorem parse?_render {value : Json} (legible : value.Legible) :
    parse? value.render.toList = some value := by
  have lexed := lexes_toTokens value legible [] (by simp [Ends])
  simp [tokens?] at lexed
  simp [parse?, render, lexed, ofTokens?_toTokens]

theorem blank_le_of_mem_render {value : Json} (legible : value.Legible) {char : Char}
    (member : char ∈ value.render.toList) : ' ' ≤ char := by
  simp [render] at member
  rcases member with ⟨token, among, member⟩
  exact Token.blank_le_of_mem_text (legible token among) member

end ClusterRing.Json
