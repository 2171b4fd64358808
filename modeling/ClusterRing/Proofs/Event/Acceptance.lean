import ClusterRing.Proofs.Address.Canonical
import ClusterRing.Proofs.Event.Frame

/-!
# Which frames are accepted

The layout of frames as a relation (`Spells`), which lets an address be written as
any text that is read as it, and what may stand in front of the text of an address
(`LeadsToAddress`). A reader recognizes a form if it takes exactly the bytes of
that form off the front, and refuses an address exactly where the bytes before it
are in order and its own text is none (`Recognizes`). Both carry over when one
reader runs after another (`Recognizes.bind`), so the parts of a frame give the
whole of it.
-/

namespace ClusterRing

namespace Frame

open Bytes

/-! ### The layout -/

/-- A text: its length and its bytes. -/
def ofText (text : String) : List UInt8 :=
  ofLength text.toUTF8.data.toList.length ++ text.toUTF8.data.toList

/-- Eight bytes hold the length of a text. -/
def FitsText (text : String) : Prop :=
  FitsLength text.toUTF8.data.toList.length

/-- Addresses one after the other, each as some text that is read as it. -/
inductive SpellsEach : List UInt8 → List Address → Prop
  | nil : SpellsEach [] []
  | cons {text : String} {node : Address} {bytes : List UInt8} {nodes : List Address} :
      FitsText text → Address.parse text = .ok node → SpellsEach bytes nodes →
      SpellsEach (ofText text ++ bytes) (node :: nodes)

/-- A list of addresses: their number, and the addresses. -/
inductive SpellsList : List UInt8 → List Address → Prop
  | mk {bytes : List UInt8} {nodes : List Address} :
      FitsLength nodes.length → SpellsEach bytes nodes →
      SpellsList (ofLength nodes.length ++ bytes) nodes

/-- The parts of an event with a number, in order. -/
inductive SpellsParts : (number : Nat) → List UInt8 → Event → Prop
  | topology {first second : List UInt8} {attached detached : List Address} :
      SpellsList first attached → SpellsList second detached →
      SpellsParts 0 (first ++ second) (.topology attached detached)
  | prepareMigration {kind : Migration.Kind} {bytes : List UInt8} {nodes : List Address} :
      SpellsList bytes nodes →
      SpellsParts 1 (ofKind kind ++ bytes) (.prepareMigration kind nodes)
  | rangeApplied {start stop : Point} :
      SpellsParts 2 (ofNumber start.toNat ++ ofNumber stop.toNat) (.rangeApplied start stop)
  | alterChange {first second : List UInt8} {attached detached : List Address} :
      SpellsList first attached → SpellsList second detached →
      SpellsParts 3 (first ++ second) (.alterChange attached detached)

/-- An event: its number, and its parts. -/
inductive Spells : List UInt8 → Event → Prop
  | mk {number : Nat} {bytes : List UInt8} {event : Event} :
      SpellsParts number bytes event → Spells (ofNumber number ++ bytes) event

/-- The beginning of a list, up to the text of one of its addresses. -/
inductive LeadsIntoList : List UInt8 → Prop
  | mk {count : Nat} {bytes : List UInt8} {nodes : List Address} :
      FitsLength count → nodes.length < count → SpellsEach bytes nodes →
      LeadsIntoList (ofLength count ++ bytes)

/-- The beginning of the parts of an event with a number, up to the text of an address. -/
inductive LeadsIntoParts : (number : Nat) → List UInt8 → Prop
  | attached {number : Nat} {bytes : List UInt8} :
      number = 0 ∨ number = 3 → LeadsIntoList bytes → LeadsIntoParts number bytes
  | detached {number : Nat} {first bytes : List UInt8} {attached : List Address} :
      number = 0 ∨ number = 3 → SpellsList first attached → LeadsIntoList bytes →
      LeadsIntoParts number (first ++ bytes)
  | prepared {kind : Migration.Kind} {bytes : List UInt8} :
      LeadsIntoList bytes → LeadsIntoParts 1 (ofKind kind ++ bytes)

/-- The beginning of an event, up to the text of an address. -/
inductive LeadsToAddress : List UInt8 → Prop
  | mk {number : Nat} {bytes : List UInt8} :
      LeadsIntoParts number bytes → LeadsToAddress (ofNumber number ++ bytes)

/-! ### Recognition -/

variable {α β : Type} {reader first : Reader α} {next : α → Reader β}

/--
A reader takes a form off the front of any bytes, or else it fails, and it refuses an
address exactly where some bytes lead to the text of one and the text is none.
-/
structure Recognizes (reader : Reader α) (form : List UInt8 → α → Prop)
    (leads : List UInt8 → Prop) : Prop where
  ok_iff : ∀ bytes value rest, reader bytes = .ok (value, rest) ↔
    ∃ front, form front value ∧ bytes = front ++ rest
  refused_iff : ∀ bytes cause, reader bytes = .error (.invalidAddress cause) ↔
    ∃ front text rest, leads front ∧ FitsText text ∧ Address.parse text = .error cause ∧
      bytes = front ++ (ofText text ++ rest)

theorem bind_eq_ok_iff {bytes rest : List UInt8} {result : β} :
    (first >>= next) bytes = .ok (result, rest) ↔
      ∃ value more, first bytes = .ok (value, more) ∧ next value more = .ok (result, rest) := by
  simp only [Bind.bind, StateT.bind]
  rcases first bytes with fault | ⟨value, more⟩
  · simp [Except.bind]
  · simp [Except.bind]

theorem bind_eq_error_iff {bytes : List UInt8} {fault : Fault} :
    (first >>= next) bytes = .error fault ↔
      first bytes = .error fault ∨
        ∃ value more, first bytes = .ok (value, more) ∧ next value more = .error fault := by
  simp only [Bind.bind, StateT.bind]
  rcases first bytes with other | ⟨value, more⟩
  · simp [Except.bind]
  · simp [Except.bind]

namespace Recognizes

variable {form other : List UInt8 → α → Prop} {leads others : List UInt8 → Prop}

theorem congr (recognizes : Recognizes reader form leads)
    (forms : ∀ bytes value, form bytes value ↔ other bytes value)
    (leading : ∀ bytes, leads bytes ↔ others bytes) : Recognizes reader other others where
  ok_iff bytes value rest := by simp only [recognizes.ok_iff, forms]
  refused_iff bytes cause := by simp only [recognizes.refused_iff, leading]

theorem pure (value : α) :
    Recognizes (pure value) (fun bytes result => bytes = [] ∧ result = value) fun _ => False where
  ok_iff bytes result rest := by
    change Except.ok (value, bytes) = Except.ok (result, rest) ↔ _
    simp [eq_comm]
  refused_iff bytes cause := by
    change Except.ok (value, bytes) = Except.error _ ↔ _
    simp

theorem malformed :
    Recognizes (throw .malformed : Reader α) (fun _ _ => False) fun _ => False where
  ok_iff bytes value rest := by
    change Except.error _ = Except.ok _ ↔ _
    simp
  refused_iff bytes cause := by
    change Except.error Fault.malformed = Except.error _ ↔ _
    simp

/-- One reader runs after another. -/
theorem bind {forms : α → List UInt8 → β → Prop} {leadings : α → List UInt8 → Prop}
    (recognizes : Recognizes first form leads)
    (continues : ∀ value, Recognizes (next value) (forms value) (leadings value)) :
    Recognizes (first >>= next)
      (fun bytes result => ∃ front value more, form front value ∧ forms value more result ∧
        bytes = front ++ more)
      (fun bytes => leads bytes ∨ ∃ front value more, form front value ∧ leadings value more ∧
        bytes = front ++ more) where
  ok_iff bytes result rest := by
    rw [bind_eq_ok_iff]
    constructor
    · rintro ⟨value, remaining, taken, continued⟩
      rcases (recognizes.ok_iff _ _ _).mp taken with ⟨front, here, rfl⟩
      rcases ((continues value).ok_iff _ _ _).mp continued with ⟨more, there, rfl⟩
      exact ⟨front ++ more, ⟨front, value, more, here, there, rfl⟩, by rw [List.append_assoc]⟩
    · rintro ⟨_, ⟨front, value, more, here, there, rfl⟩, rfl⟩
      refine ⟨value, more ++ rest, ?_, ?_⟩
      · exact (recognizes.ok_iff _ _ _).mpr ⟨front, here, by rw [List.append_assoc]⟩
      · exact ((continues value).ok_iff _ _ _).mpr ⟨more, there, rfl⟩
  refused_iff bytes cause := by
    rw [bind_eq_error_iff]
    constructor
    · rintro (refused | ⟨value, remaining, taken, refused⟩)
      · rcases (recognizes.refused_iff _ _).mp refused with ⟨front, text, rest, led, found⟩
        exact ⟨front, text, rest, .inl led, found⟩
      · rcases (recognizes.ok_iff _ _ _).mp taken with ⟨front, here, rfl⟩
        rcases ((continues value).refused_iff _ _).mp refused with
          ⟨more, text, rest, led, fits, none_read, rfl⟩
        exact ⟨front ++ more, text, rest, .inr ⟨front, value, more, here, led, rfl⟩, fits,
          none_read, by rw [List.append_assoc]⟩
    · rintro ⟨_, text, rest, led | ⟨front, value, more, here, led, rfl⟩, fits, none_read, rfl⟩
      · exact .inl ((recognizes.refused_iff _ _).mpr ⟨_, text, rest, led, fits, none_read, rfl⟩)
      · refine .inr ⟨value, more ++ (ofText text ++ rest), ?_, ?_⟩
        · exact (recognizes.ok_iff _ _ _).mpr ⟨front, here, by rw [List.append_assoc]⟩
        · exact ((continues value).refused_iff _ _).mpr
            ⟨more, text, rest, led, fits, none_read, rfl⟩

/-- What is done with a value takes no more bytes. -/
theorem map (recognizes : Recognizes first form leads) (make : α → β) :
    Recognizes (do return make (← first))
      (fun bytes result => ∃ value, form bytes value ∧ result = make value) leads := by
  apply (recognizes.bind fun value => .pure (make value)).congr
  · intro bytes result
    constructor
    · rintro ⟨front, value, _, here, ⟨rfl, rfl⟩, rfl⟩
      exact ⟨value, by rwa [List.append_nil], rfl⟩
    · rintro ⟨value, here, rfl⟩
      exact ⟨bytes, value, [], here, ⟨rfl, rfl⟩, by rw [List.append_nil]⟩
  · simp

end Recognizes

/-! ### Numbers and texts -/

theorem recognizes_takeBytes (count : Nat) : Recognizes (takeBytes count)
    (fun bytes taken => bytes = taken ∧ taken.length = count) fun _ => False where
  ok_iff bytes taken rest := by
    unfold takeBytes
    split
    · next enough =>
        simp only [Except.ok.injEq, Prod.mk.injEq]
        constructor
        · rintro ⟨rfl, rfl⟩
          exact ⟨_, ⟨rfl, by simpa using enough⟩, (List.take_append_drop count bytes).symm⟩
        · rintro ⟨_, ⟨rfl, rfl⟩, rfl⟩
          simp
    · next short =>
        refine iff_of_false (by simp) ?_
        rintro ⟨_, ⟨rfl, rfl⟩, rfl⟩
        exact short (by simp)
  refused_iff bytes cause := by
    unfold takeBytes
    split <;> simp

theorem recognizes_readNat (width : Nat) : Recognizes (readNat width)
    (fun bytes number => number < LittleEndian.capacity width ∧
      bytes = LittleEndian.ofNat width number) fun _ => False := by
  apply ((recognizes_takeBytes width).map LittleEndian.toNat).congr
  · intro bytes number
    constructor
    · rintro ⟨_, ⟨rfl, rfl⟩, rfl⟩
      exact ⟨LittleEndian.toNat_lt bytes, (LittleEndian.ofNat_toNat bytes).symm⟩
    · rintro ⟨fits, rfl⟩
      exact ⟨_, ⟨rfl, LittleEndian.length_ofNat width number⟩,
        (LittleEndian.toNat_ofNat_of_lt fits).symm⟩
  · exact fun _ => Iff.rfl

theorem fromUTF8?_eq_some_iff {content : List UInt8} {text : String} :
    String.fromUTF8? ⟨content.toArray⟩ = some text ↔ text.toUTF8.data.toList = content := by
  constructor
  · intro decoded
    rw [String.fromUTF8?] at decoded
    split at decoded
    · rw [← Option.some.inj decoded]
      rfl
    · cases decoded
  · rintro rfl
    rw [Array.toArray_toList, fromUTF8?_toUTF8]

theorem recognizes_textOf (content : List UInt8) : Recognizes (textOf content)
    (fun bytes text => bytes = [] ∧ text.toUTF8.data.toList = content) fun _ => False := by
  cases decoded : String.fromUTF8? ⟨content.toArray⟩ with
  | some text =>
      have reads : textOf content = pure text := by rw [textOf, decoded]
      rw [reads]
      apply (Recognizes.pure text).congr
      · intro bytes other
        rw [← fromUTF8?_eq_some_iff, decoded, Option.some.injEq, eq_comm (a := text)]
      · exact fun _ => Iff.rfl
  | none =>
      have fails : textOf content = throw .malformed := by rw [textOf, decoded]
      rw [fails]
      apply Recognizes.malformed.congr
      · intro bytes text
        rw [← fromUTF8?_eq_some_iff, decoded]
        simp
      · exact fun _ => Iff.rfl

theorem recognizes_readText : Recognizes readText
    (fun bytes text => FitsText text ∧ bytes = ofText text) fun _ => False := by
  apply ((recognizes_readNat 8).bind fun length =>
    (recognizes_takeBytes length).bind recognizes_textOf).congr
  · intro bytes text
    constructor
    · rintro ⟨_, length, _, ⟨fits, rfl⟩, ⟨content, _, _, ⟨rfl, rfl⟩, ⟨rfl, spelled⟩, rfl⟩, rfl⟩
      subst spelled
      exact ⟨fits, by rw [List.append_nil]; rfl⟩
    · rintro ⟨fits, rfl⟩
      exact ⟨_, _, _, ⟨fits, rfl⟩, ⟨_, _, [], ⟨rfl, rfl⟩, ⟨rfl, rfl⟩, by rw [List.append_nil]⟩, rfl⟩
  · simp

/-! ### Addresses -/

theorem addressOf_eq_ok_iff {text : String} {node : Address} {bytes rest : List UInt8} :
    addressOf text bytes = .ok (node, rest) ↔ Address.parse text = .ok node ∧ bytes = rest := by
  rw [addressOf]
  cases Address.parse text with
  | error cause =>
      change Except.error _ = Except.ok _ ↔ _
      simp
  | ok other =>
      change Except.ok (other, bytes) = Except.ok _ ↔ _
      simp

theorem addressOf_eq_error_iff {text : String} {cause : Address.Fault} {bytes : List UInt8} :
    addressOf text bytes = .error (.invalidAddress cause) ↔ Address.parse text = .error cause := by
  rw [addressOf]
  cases Address.parse text with
  | error other =>
      change Except.error _ = Except.error _ ↔ _
      simp
  | ok node =>
      change Except.ok (node, bytes) = Except.error _ ↔ _
      simp

theorem recognizes_readAddress : Recognizes readAddress
    (fun bytes node => ∃ text, FitsText text ∧ Address.parse text = .ok node ∧ bytes = ofText text)
    fun bytes => bytes = [] where
  ok_iff bytes node rest := by
    rw [readAddress, bind_eq_ok_iff]
    constructor
    · rintro ⟨text, more, taken, named⟩
      rcases (recognizes_readText.ok_iff _ _ _).mp taken with ⟨_, ⟨fits, rfl⟩, rfl⟩
      rcases addressOf_eq_ok_iff.mp named with ⟨found, rfl⟩
      exact ⟨ofText text, ⟨text, fits, found, rfl⟩, rfl⟩
    · rintro ⟨_, ⟨text, fits, found, rfl⟩, rfl⟩
      refine ⟨text, rest, ?_, addressOf_eq_ok_iff.mpr ⟨found, rfl⟩⟩
      exact (recognizes_readText.ok_iff _ _ _).mpr ⟨_, ⟨fits, rfl⟩, rfl⟩
  refused_iff bytes cause := by
    rw [readAddress, bind_eq_error_iff]
    constructor
    · rintro (refused | ⟨text, more, taken, refused⟩)
      · rcases (recognizes_readText.refused_iff _ _).mp refused with ⟨_, _, _, impossible, _⟩
        exact impossible.elim
      · rcases (recognizes_readText.ok_iff _ _ _).mp taken with ⟨_, ⟨fits, rfl⟩, rfl⟩
        exact ⟨[], text, more, rfl, fits, addressOf_eq_error_iff.mp refused, rfl⟩
    · rintro ⟨_, text, rest, rfl, fits, none_read, rfl⟩
      refine .inr ⟨text, rest, ?_, addressOf_eq_error_iff.mpr none_read⟩
      exact (recognizes_readText.ok_iff _ _ _).mpr ⟨_, ⟨fits, rfl⟩, rfl⟩

theorem recognizes_readMany (count : Nat) : Recognizes (readMany count)
    (fun bytes nodes => SpellsEach bytes nodes ∧ nodes.length = count)
    fun bytes => ∃ nodes, SpellsEach bytes nodes ∧ nodes.length < count := by
  induction count with
  | zero =>
      apply (Recognizes.pure []).congr
      · intro bytes nodes
        constructor
        · rintro ⟨rfl, rfl⟩
          exact ⟨.nil, rfl⟩
        · rintro ⟨spells, none_left⟩
          cases spells with
          | nil => exact ⟨rfl, rfl⟩
          | cons => simp at none_left
      · simp
  | succ count ih =>
      apply (recognizes_readAddress.bind fun node => ih.map (node :: ·)).congr
      · intro bytes nodes
        constructor
        · rintro ⟨_, node, more, ⟨text, fits, found, rfl⟩, ⟨others, ⟨spells, length⟩, rfl⟩, rfl⟩
          exact ⟨.cons fits found spells, by rw [List.length_cons, length]⟩
        · rintro ⟨spells, length⟩
          cases spells with
          | nil => simp at length
          | cons fits found spells =>
              exact ⟨_, _, _, ⟨_, fits, found, rfl⟩, ⟨_, ⟨spells, Nat.succ.inj length⟩, rfl⟩, rfl⟩
      · intro bytes
        constructor
        · rintro (rfl | ⟨_, node, more, ⟨text, fits, found, rfl⟩, ⟨nodes, spells, fewer⟩, rfl⟩)
          · exact ⟨[], .nil, Nat.succ_pos count⟩
          · exact ⟨node :: nodes, .cons fits found spells, Nat.succ_lt_succ fewer⟩
        · rintro ⟨nodes, spells, fewer⟩
          cases spells with
          | nil => exact .inl rfl
          | cons fits found spells =>
              exact .inr ⟨_, _, _, ⟨_, fits, found, rfl⟩, ⟨_, spells, Nat.lt_of_succ_lt_succ fewer⟩,
                rfl⟩

theorem recognizes_readAddresses : Recognizes readAddresses SpellsList LeadsIntoList := by
  apply ((recognizes_readNat 8).bind recognizes_readMany).congr
  · intro bytes nodes
    constructor
    · rintro ⟨_, count, more, ⟨fits, rfl⟩, ⟨spells, rfl⟩, rfl⟩
      exact .mk fits spells
    · rintro ⟨fits, spells⟩
      exact ⟨_, _, _, ⟨fits, rfl⟩, ⟨spells, rfl⟩, rfl⟩
  · intro bytes
    constructor
    · rintro (impossible | ⟨_, count, more, ⟨fits, rfl⟩, ⟨nodes, spells, fewer⟩, rfl⟩)
      · exact impossible.elim
      · exact .mk fits fewer spells
    · rintro ⟨fits, fewer, spells⟩
      exact .inr ⟨_, _, _, ⟨fits, rfl⟩, ⟨_, spells, fewer⟩, rfl⟩

/-! ### Events -/

theorem recognizes_readPoint : Recognizes readPoint
    (fun bytes (point : Point) => bytes = ofNumber point.toNat) fun _ => False := by
  apply ((recognizes_readNat 4).map UInt32.ofNat).congr
  · intro bytes point
    constructor
    · rintro ⟨number, ⟨fits, rfl⟩, rfl⟩
      rw [UInt32.toNat_ofNat_of_lt' fits]
      rfl
    · rintro rfl
      exact ⟨point.toNat, ⟨point.toNat_lt, rfl⟩, UInt32.ofNat_toNat.symm⟩
  · exact fun _ => Iff.rfl

/-- The number of a kind of migration. -/
def numberOf : Migration.Kind → Nat
  | .join => 0
  | .leave => 1

theorem ofKind_eq (kind : Migration.Kind) : ofKind kind = ofNumber (numberOf kind) := by
  cases kind <;> rfl

theorem numberOf_lt (kind : Migration.Kind) : numberOf kind < LittleEndian.capacity 4 := by
  cases kind <;> decide

theorem recognizes_kindOf (number : Nat) : Recognizes (kindOf number)
    (fun bytes kind => bytes = [] ∧ number = numberOf kind) fun _ => False := by
  match number with
  | 0 =>
      apply (Recognizes.pure Migration.Kind.join).congr
      · rintro bytes (_ | _) <;> simp [numberOf]
      · exact fun _ => Iff.rfl
  | 1 =>
      apply (Recognizes.pure Migration.Kind.leave).congr
      · rintro bytes (_ | _) <;> simp [numberOf]
      · exact fun _ => Iff.rfl
  | number + 2 =>
      apply Recognizes.malformed.congr
      · rintro bytes (_ | _) <;> simp [numberOf]
      · exact fun _ => Iff.rfl

theorem recognizes_readKind : Recognizes readKind
    (fun bytes kind => bytes = ofKind kind) fun _ => False := by
  apply ((recognizes_readNat 4).bind recognizes_kindOf).congr
  · intro bytes kind
    rw [ofKind_eq]
    constructor
    · rintro ⟨_, _, _, ⟨-, rfl⟩, ⟨rfl, rfl⟩, rfl⟩
      rw [List.append_nil]
      rfl
    · rintro rfl
      exact ⟨_, _, [], ⟨numberOf_lt kind, rfl⟩, ⟨rfl, rfl⟩, by rw [List.append_nil]; rfl⟩
  · simp

theorem recognizes_change (make : List Address → List Address → Event) :
    Recognizes (do
      let attached ← readAddresses
      let detached ← readAddresses
      return make attached detached)
      (fun bytes event => ∃ first attached second detached, SpellsList first attached ∧
        SpellsList second detached ∧ bytes = first ++ second ∧ event = make attached detached)
      (fun bytes => LeadsIntoList bytes ∨ ∃ first attached more, SpellsList first attached ∧
        LeadsIntoList more ∧ bytes = first ++ more) := by
  apply (recognizes_readAddresses.bind fun attached =>
    recognizes_readAddresses.map (make attached)).congr
  · intro bytes event
    constructor
    · rintro ⟨first, attached, second, here, ⟨detached, there, rfl⟩, rfl⟩
      exact ⟨first, attached, second, detached, here, there, rfl, rfl⟩
    · rintro ⟨first, attached, second, detached, here, there, rfl, rfl⟩
      exact ⟨first, attached, second, here, ⟨detached, there, rfl⟩, rfl⟩
  · exact fun _ => Iff.rfl

/-- A change of membership holds addresses in both of its lists. -/
theorem leadsIntoParts_change_iff {number : Nat} {bytes : List UInt8}
    (change : number = 0 ∨ number = 3) :
    LeadsIntoParts number bytes ↔ LeadsIntoList bytes ∨ ∃ first attached more,
      SpellsList first attached ∧ LeadsIntoList more ∧ bytes = first ++ more := by
  constructor
  · rintro (⟨-, led⟩ | ⟨-, here, led⟩ | led)
    · exact .inl led
    · exact .inr ⟨_, _, _, here, led, rfl⟩
    · simp at change
  · rintro (led | ⟨first, attached, more, here, led, rfl⟩)
    · exact .attached change led
    · exact .detached change here led

theorem recognizes_readParts (number : Nat) :
    Recognizes (readParts number) (SpellsParts number) (LeadsIntoParts number) := by
  match number with
  | 0 =>
      apply (recognizes_change .topology).congr
      · intro bytes event
        constructor
        · rintro ⟨_, _, _, _, here, there, rfl, rfl⟩
          exact .topology here there
        · intro spells
          cases spells with
          | topology here there => exact ⟨_, _, _, _, here, there, rfl, rfl⟩
      · exact fun _ => (leadsIntoParts_change_iff (.inl rfl)).symm
  | 1 =>
      apply (recognizes_readKind.bind fun kind =>
        recognizes_readAddresses.map (Event.prepareMigration kind)).congr
      · intro bytes event
        constructor
        · rintro ⟨_, kind, more, rfl, ⟨nodes, spells, rfl⟩, rfl⟩
          exact .prepareMigration spells
        · intro spells
          cases spells with
          | prepareMigration here => exact ⟨_, _, _, rfl, ⟨_, here, rfl⟩, rfl⟩
      · intro bytes
        constructor
        · rintro (impossible | ⟨_, kind, more, rfl, led, rfl⟩)
          · exact impossible.elim
          · exact .prepared led
        · rintro (⟨wrong, -⟩ | ⟨wrong, -, -⟩ | led)
          · simp at wrong
          · simp at wrong
          · exact .inr ⟨_, _, _, rfl, led, rfl⟩
  | 2 =>
      apply (recognizes_readPoint.bind fun start =>
        recognizes_readPoint.map (Event.rangeApplied start)).congr
      · intro bytes event
        constructor
        · rintro ⟨_, start, _, rfl, ⟨stop, rfl, rfl⟩, rfl⟩
          exact .rangeApplied
        · intro spells
          cases spells with
          | rangeApplied => exact ⟨_, _, _, rfl, ⟨_, rfl, rfl⟩, rfl⟩
      · intro bytes
        constructor
        · rintro (impossible | ⟨_, _, _, -, impossible, -⟩)
          · exact impossible.elim
          · exact impossible.elim
        · rintro (⟨wrong, -⟩ | ⟨wrong, -, -⟩)
          · simp at wrong
          · simp at wrong
  | 3 =>
      apply (recognizes_change .alterChange).congr
      · intro bytes event
        constructor
        · rintro ⟨_, _, _, _, here, there, rfl, rfl⟩
          exact .alterChange here there
        · intro spells
          cases spells with
          | alterChange here there => exact ⟨_, _, _, _, here, there, rfl, rfl⟩
      · exact fun _ => (leadsIntoParts_change_iff (.inr rfl)).symm
  | number + 4 =>
      apply Recognizes.malformed.congr
      · refine fun bytes event => iff_of_false id ?_
        rintro ⟨⟩
      · refine fun bytes => iff_of_false id ?_
        rintro (⟨wrong, -⟩ | ⟨wrong, -, -⟩)
        · simp at wrong
        · simp at wrong

theorem SpellsParts.number_lt {number : Nat} {bytes : List UInt8} {event : Event}
    (spells : SpellsParts number bytes event) : number < LittleEndian.capacity 4 := by
  cases spells <;> decide

theorem LeadsIntoParts.number_lt {number : Nat} {bytes : List UInt8}
    (leads : LeadsIntoParts number bytes) : number < LittleEndian.capacity 4 := by
  rcases leads with ⟨rfl | rfl, -⟩ | ⟨rfl | rfl, -, -⟩ | - <;> decide

theorem recognizes_readEvent : Recognizes readEvent Spells LeadsToAddress := by
  apply ((recognizes_readNat 4).bind recognizes_readParts).congr
  · intro bytes event
    constructor
    · rintro ⟨_, number, more, ⟨-, rfl⟩, spells, rfl⟩
      exact .mk spells
    · rintro ⟨spells⟩
      exact ⟨_, _, _, ⟨spells.number_lt, rfl⟩, spells, rfl⟩
  · intro bytes
    constructor
    · rintro (impossible | ⟨_, number, more, ⟨-, rfl⟩, led, rfl⟩)
      · exact impossible.elim
      · exact .mk led
    · rintro ⟨led⟩
      exact .inr ⟨_, _, _, ⟨led.number_lt, rfl⟩, led, rfl⟩

/-! ### What is accepted is read back -/

theorem SpellsEach.read {bytes : List UInt8} {nodes : List Address}
    (spells : SpellsEach bytes nodes) : ∀ node ∈ nodes,
      ∃ text, FitsText text ∧ Address.parse text = .ok node := by
  induction spells with
  | nil => simp
  | cons fits found _ ih => exact List.forall_mem_cons.mpr ⟨⟨_, fits, found⟩, ih⟩

/-- The own text of an address has room where some text of it had. -/
theorem FitsText.of_parse {text : String} {node : Address} (fits : FitsText text)
    (found : Address.parse text = .ok node) : FitsText node.text :=
  Nat.lt_of_le_of_lt (Address.utf8ByteSize_text_le found) fits

theorem SpellsList.readable {bytes : List UInt8} {nodes : List Address}
    (spells : SpellsList bytes nodes) : (∀ node ∈ nodes, node.Readable) ∧ FitsAddresses nodes := by
  rcases spells with ⟨fits, spells⟩
  refine ⟨?_, fits, ?_⟩
  · intro node member
    rcases spells.read node member with ⟨text, -, found⟩
    exact ⟨text, found⟩
  · intro node member
    rcases spells.read node member with ⟨text, fitsText, found⟩
    exact fitsText.of_parse found

theorem SpellsParts.lists {number : Nat} {bytes : List UInt8} {event : Event}
    (spells : SpellsParts number bytes event) :
    ∀ nodes ∈ event.addressLists, ∃ part, SpellsList part nodes := by
  cases spells with
  | topology here there => simpa [Event.addressLists] using ⟨⟨_, here⟩, ⟨_, there⟩⟩
  | prepareMigration here => simpa [Event.addressLists] using ⟨_, here⟩
  | rangeApplied => simp [Event.addressLists]
  | alterChange here there => simpa [Event.addressLists] using ⟨⟨_, here⟩, ⟨_, there⟩⟩

theorem Spells.reads_encode {bytes : List UInt8} {event : Event} (spells : Spells bytes event) :
    Reads readEvent (encode event) event := by
  rcases spells with ⟨spells⟩
  apply reads_readEvent
  · intro nodes member
    rcases spells.lists nodes member with ⟨part, here⟩
    exact here.readable.1
  · intro nodes member
    rcases spells.lists nodes member with ⟨part, here⟩
    exact here.readable.2

/-! ### Frames -/

variable {frame : List UInt8}

theorem decode_eq_ok_iff {event : Event} :
    decode frame = .ok event ↔ ∃ bytes, Spells bytes event ∧ bytes <+: frame := by
  have read : decode frame = .ok event ↔ ∃ rest, readEvent frame = .ok (event, rest) := by
    rw [decode]
    rcases readEvent frame with fault | ⟨other, rest⟩
    · simp [Except.map]
    · simp [Except.map]
  rw [read]
  constructor
  · rintro ⟨rest, taken⟩
    rcases (recognizes_readEvent.ok_iff _ _ _).mp taken with ⟨bytes, spells, whole⟩
    exact ⟨bytes, spells, rest, whole.symm⟩
  · rintro ⟨bytes, spells, rest, whole⟩
    exact ⟨rest, (recognizes_readEvent.ok_iff _ _ _).mpr ⟨bytes, spells, whole.symm⟩⟩

theorem decode_eq_error_iff {fault : Fault} :
    decode frame = .error fault ↔ readEvent frame = .error fault := by
  rw [decode]
  rcases readEvent frame with other | pair
  · simp [Except.map]
  · simp [Except.map]

/-- Some bytes of the frame lead to the text of an address, and the text is none. -/
def Refuses (frame : List UInt8) (cause : Address.Fault) : Prop :=
  ∃ front text, LeadsToAddress front ∧ FitsText text ∧ Address.parse text = .error cause ∧
    front ++ ofText text <+: frame

theorem decode_eq_invalidAddress_iff {cause : Address.Fault} :
    decode frame = .error (.invalidAddress cause) ↔ Refuses frame cause := by
  rw [decode_eq_error_iff, recognizes_readEvent.refused_iff]
  constructor
  · rintro ⟨front, text, rest, led, fits, none_read, rfl⟩
    exact ⟨front, text, led, fits, none_read, rest, by rw [List.append_assoc]⟩
  · rintro ⟨front, text, led, fits, none_read, rest, rfl⟩
    exact ⟨front, text, rest, led, fits, none_read, by rw [List.append_assoc]⟩

theorem decode_eq_malformed_iff :
    decode frame = .error .malformed ↔
      (∀ event, decode frame ≠ .ok event) ∧ ∀ cause, decode frame ≠ .error (.invalidAddress cause) := by
  rcases decode frame with (_ | cause) | event
  · simp
  · simp
  · simp

/--
A frame is read as an event exactly if it begins with the layout of the event, where each
address may be written as any text that is read as it, and the event's own frame is then
read as the event too, whatever follows. An invalid address is reported exactly if all
that stands before the text of some address is in order and the text itself is none.
Every other frame is malformed, and no frame is a reason to stop.
-/
theorem decode_accepts_spelled (frame : List UInt8) :
    (∀ event, (decode frame = .ok event ↔ ∃ bytes, Spells bytes event ∧ bytes <+: frame) ∧
      (decode frame = .ok event → ∀ rest, decode (encode event ++ rest) = .ok event)) ∧
    (∀ cause, decode frame = .error (.invalidAddress cause) ↔ Refuses frame cause) ∧
    (decode frame = .error .malformed ↔
      (∀ event bytes, Spells bytes event → ¬bytes <+: frame) ∧ ∀ cause, ¬Refuses frame cause) ∧
    ∀ fault, decode frame = .error fault → (ControlLoop.Failure.codec fault).isFatal = false := by
  refine ⟨?_, fun _ => decode_eq_invalidAddress_iff, ?_, fun _ _ => rfl⟩
  · intro event
    refine ⟨decode_eq_ok_iff, ?_⟩
    intro accepted
    rcases decode_eq_ok_iff.mp accepted with ⟨bytes, spells, -⟩
    exact spells.reads_encode.decode_append
  · simp only [decode_eq_malformed_iff, decode_eq_invalidAddress_iff, ne_eq, decode_eq_ok_iff,
      not_exists, not_and]

/-- Blanks, a sign and a leading zero are accepted, although no frame that is written has them. -/
example : decode (ofNumber 1 ++ (ofKind .join ++ (ofLength 1 ++ ofText " a:+01")) ++ [7]) =
    .ok (.prepareMigration .join [⟨"a", 1, by decide⟩]) := by
  rfl

end Frame

end ClusterRing
