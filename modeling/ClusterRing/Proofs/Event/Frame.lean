import ClusterRing.ControlLoop
import ClusterRing.Proofs.Readable

/-!
# Frames are read back

A reader takes what was written off the front of its bytes and leaves the rest,
and it fails if any of the bytes at the end are missing (`Reads`). Both halves
carry over when one reader runs after another (`Reads.bind`), so each record of
a frame follows from its parts. A frame is therefore read back whatever comes
after it, and no frame begins with another one.
-/

namespace ClusterRing

namespace Frame

open Bytes

/-- A length that eight bytes can hold. -/
def FitsLength (length : Nat) : Prop :=
  length < LittleEndian.capacity 8

instance (length : Nat) : Decidable (FitsLength length) :=
  inferInstanceAs (Decidable (length < _))

def FitsAddresses (nodes : List Address) : Prop :=
  FitsLength nodes.length ∧ ∀ node ∈ nodes, FitsLength node.text.toUTF8.data.toList.length

instance (nodes : List Address) : Decidable (FitsAddresses nodes) :=
  inferInstanceAs (Decidable (_ ∧ _))

/--
Eight bytes hold the length of each list and of each text in an event. No list or text
in memory is longer.
-/
def Fits (event : Event) : Prop :=
  ∀ nodes ∈ event.addressLists, FitsAddresses nodes

instance (event : Event) : Decidable (Fits event) :=
  inferInstanceAs (Decidable (∀ nodes ∈ event.addressLists, _))

/-- A reader takes a value off the front of any bytes, and fails when they end too early. -/
structure Reads {α : Type} (reader : Reader α) (bytes : List UInt8) (value : α) : Prop where
  whole : ∀ rest, reader (bytes ++ rest) = .ok (value, rest)
  cut : ∀ front, front <+: bytes → front ≠ bytes → reader front = .error .malformed

variable {α β : Type} {reader first : Reader α} {bytes more : List UInt8} {value : α}

/-- What is missing at the end of two pieces reaches into the first or only into the second. -/
theorem strict_front_append {front : List UInt8} (shorter : front <+: bytes ++ more)
    (strict : front ≠ bytes ++ more) :
    (front <+: bytes ∧ front ≠ bytes) ∨
      ∃ rest, front = bytes ++ rest ∧ rest <+: more ∧ rest ≠ more := by
  by_cases covers : bytes <+: front
  · right
    rcases covers with ⟨rest, rfl⟩
    refine ⟨rest, rfl, (List.prefix_append_right_inj bytes).mp shorter, ?_⟩
    rintro rfl
    exact strict rfl
  · left
    rcases List.prefix_or_prefix_of_prefix shorter (List.prefix_append bytes more) with
      within | beyond
    · refine ⟨within, ?_⟩
      rintro rfl
      exact covers (List.prefix_refl _)
    · exact absurd beyond covers

theorem Reads.pure (value : α) : Reads (pure value) [] value where
  whole _ := rfl
  cut _ shorter strict := absurd (List.prefix_nil.mp shorter) strict

/-- One reader runs after another. -/
theorem Reads.bind {next : α → Reader β} {result : β} (reads : Reads first bytes value)
    (continues : Reads (next value) more result) :
    Reads (first >>= next) (bytes ++ more) result where
  whole rest := by
    simp only [Bind.bind, StateT.bind]
    rw [List.append_assoc, reads.whole (more ++ rest)]
    exact continues.whole rest
  cut front shorter strict := by
    simp only [Bind.bind, StateT.bind]
    rcases strict_front_append shorter strict with ⟨within, short⟩ | ⟨rest, rfl, within, short⟩
    · rw [reads.cut front within short]
      rfl
    · rw [reads.whole rest]
      exact continues.cut rest within short

/-- What is done with a value takes no more bytes. -/
theorem Reads.last {next : α → Reader β} {result : β} (reads : Reads first bytes value)
    (ends : next value = Pure.pure result) : Reads (first >>= next) bytes result := by
  have finished : Reads (next value) [] result := by
    rw [ends]
    exact .pure result
  have whole := reads.bind finished
  rwa [List.append_nil] at whole

theorem reads_takeBytes (bytes : List UInt8) : Reads (takeBytes bytes.length) bytes bytes where
  whole rest := by simp [takeBytes]
  cut front shorter strict := by
    have short : front.length < bytes.length := by
      rcases Nat.lt_or_eq_of_le shorter.length_le with less | same
      · exact less
      · exact absurd (shorter.eq_of_length same) strict
    simp [takeBytes, Nat.not_le.mpr short]

theorem reads_readNat {width number : Nat} (fits : number < LittleEndian.capacity width) :
    Reads (readNat width) (LittleEndian.ofNat width number) number := by
  have digits : Reads (takeBytes width) (LittleEndian.ofNat width number)
      (LittleEndian.ofNat width number) := by
    have taken := reads_takeBytes (LittleEndian.ofNat width number)
    rwa [LittleEndian.length_ofNat] at taken
  apply digits.last
  rw [LittleEndian.toNat_ofNat_of_lt fits]

theorem fromUTF8?_toUTF8 (text : String) : String.fromUTF8? text.toUTF8 = some text := by
  have valid : text.toUTF8.IsValidUTF8 := text.isValidUTF8
  rw [String.fromUTF8?, dif_pos valid]
  rfl

theorem textOf_toUTF8 (text : String) : textOf text.toUTF8.data.toList = pure text := by
  rw [textOf, Array.toArray_toList, fromUTF8?_toUTF8]

theorem reads_readText {text : String} (fits : FitsLength text.toUTF8.data.toList.length) :
    Reads readText (ofLength text.toUTF8.data.toList.length ++ text.toUTF8.data.toList) text := by
  apply (reads_readNat fits).bind
  apply (reads_takeBytes _).last
  exact textOf_toUTF8 text

theorem reads_readAddress {node : Address} (readable : node.Readable)
    (fits : FitsLength node.text.toUTF8.data.toList.length) :
    Reads readAddress (ofAddress node) node := by
  apply (reads_readText fits).last
  rw [addressOf, readable.parse_text]

theorem reads_readMany {nodes : List Address}
    (each : ∀ node ∈ nodes, Reads readAddress (ofAddress node) node) :
    Reads (readMany nodes.length) (nodes.flatMap ofAddress) nodes := by
  induction nodes with
  | nil => exact .pure []
  | cons node rest ih =>
      rw [List.flatMap_cons]
      apply (each node (by simp)).bind
      apply (ih fun other member => each other (by simp [member])).last
      rfl

theorem reads_readAddresses {nodes : List Address} (readable : ∀ node ∈ nodes, node.Readable)
    (fits : FitsAddresses nodes) : Reads readAddresses (ofAddresses nodes) nodes := by
  apply (reads_readNat fits.1).bind
  apply reads_readMany
  intro node member
  exact reads_readAddress (readable node member) (fits.2 node member)

theorem reads_readPoint (point : Point) : Reads readPoint (ofNumber point.toNat) point := by
  apply (reads_readNat point.toNat_lt).last
  rw [UInt32.ofNat_toNat]

theorem reads_readKind (kind : Migration.Kind) : Reads readKind (ofKind kind) kind := by
  cases kind with
  | join => exact (reads_readNat (by decide)).last rfl
  | leave => exact (reads_readNat (by decide)).last rfl

theorem reads_change {make : List Address → List Address → Event} {attached detached : List Address}
    (readAttached : Reads readAddresses (ofAddresses attached) attached)
    (readDetached : Reads readAddresses (ofAddresses detached) detached) :
    Reads (do
      let attached ← readAddresses
      let detached ← readAddresses
      return make attached detached) (ofAddresses attached ++ ofAddresses detached)
      (make attached detached) := by
  apply readAttached.bind
  exact readDetached.last rfl

theorem reads_readEvent {event : Event} (readable : event.Readable) (fits : Fits event) :
    Reads readEvent (encode event) event := by
  have reads : ∀ nodes ∈ event.addressLists, Reads readAddresses (ofAddresses nodes) nodes :=
    fun nodes member => reads_readAddresses (readable nodes member) (fits nodes member)
  cases event with
  | topology attached detached =>
      rw [encode, List.append_assoc]
      apply (reads_readNat (by decide)).bind
      exact reads_change (reads attached (by simp [Event.addressLists]))
        (reads detached (by simp [Event.addressLists]))
  | prepareMigration kind nodes =>
      rw [encode, List.append_assoc]
      apply (reads_readNat (by decide)).bind
      apply (reads_readKind kind).bind
      exact (reads nodes (by simp [Event.addressLists])).last rfl
  | rangeApplied start stop =>
      rw [encode, List.append_assoc]
      apply (reads_readNat (by decide)).bind
      apply (reads_readPoint start).bind
      exact (reads_readPoint stop).last rfl
  | alterChange attached detached =>
      rw [encode, List.append_assoc]
      apply (reads_readNat (by decide)).bind
      exact reads_change (reads attached (by simp [Event.addressLists]))
        (reads detached (by simp [Event.addressLists]))

theorem Reads.decode_append {event : Event} (reads : Reads readEvent bytes event)
    (rest : List UInt8) : decode (bytes ++ rest) = .ok event := by
  rw [decode, reads.whole rest]
  rfl

theorem Reads.decode_cut {event : Event} {front : List UInt8} (reads : Reads readEvent bytes event)
    (shorter : front <+: bytes) (strict : front ≠ bytes) : decode front = .error .malformed := by
  rw [decode, reads.cut front shorter strict]
  rfl

/--
The frame of an event is read as that event whatever comes after it, and what is left of
a frame when bytes at its end are missing is refused, which is no reason to stop.
-/
theorem decode_encode_append (event : Event) (readable : event.Readable) (fits : Fits event) :
    (∀ rest, decode (encode event ++ rest) = .ok event) ∧
      ∀ front, front <+: encode event → front ≠ encode event →
        ∃ cause, decode front = .error cause ∧
          (ControlLoop.Failure.codec cause).isFatal = false := by
  have reads := reads_readEvent readable fits
  constructor
  · exact reads.decode_append
  · intro front shorter strict
    exact ⟨.malformed, reads.decode_cut shorter strict, rfl⟩

/-- A host with a colon, a blank and a letter of two bytes: more bytes follow, or one is cut off. -/
theorem decode_frame_of_odd_host :
    let node : Address := ⟨"é:x y", 80, by decide⟩
    let event : Event := .prepareMigration .leave [node, node]
    event.Readable ∧ Fits event ∧ decode (encode event ++ [255, 0]) = .ok event ∧
      ∃ cause, decode (encode event).dropLast = .error cause ∧
        (ControlLoop.Failure.codec cause).isFatal = false := by
  intro node event
  have readable : event.Readable := by
    intro nodes member
    obtain rfl : nodes = [node, node] := by simpa [event, Event.addressLists] using member
    have read : node.Readable := ⟨" é:x y:+080 ", rfl⟩
    simpa using read
  have fits : Fits event := by decide
  rcases decode_encode_append event readable fits with ⟨whole, cut⟩
  have short : (encode event).dropLast ≠ encode event := by decide +kernel
  exact ⟨readable, fits, whole [255, 0],
    cut (encode event).dropLast (List.dropLast_prefix _) short⟩

end Frame

end ClusterRing
