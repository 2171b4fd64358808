import ClusterRing.Event.Document
import ClusterRing.Proofs.Json.Parser
import ClusterRing.Proofs.Readable

/-!
# Events are read back from JSON

The text of an event spells that event if its addresses can be read
(`Readable.parse?_render`). It is one line: control characters in a host are
written as escapes (`control_not_mem_render`).
-/

namespace ClusterRing

theorem Address.Readable.ofJson?_toJson {node : Address} (readable : node.Readable) :
    Address.ofJson? node.toJson = some node := by
  simp [ofJson?, toJson, Json.ofString, Json.text?, readable.parse_text, Except.toOption]

theorem Migration.Kind.ofJson?_toJson (kind : Migration.Kind) :
    ofJson? kind.toJson = some kind := by
  cases kind <;> rfl

namespace Event

theorem addressesOfJson?_addressesToJson {nodes : List Address}
    (readable : ∀ node ∈ nodes, node.Readable) :
    addressesOfJson? (addressesToJson nodes) = some nodes := by
  simp [addressesOfJson?, addressesToJson, Json.items?]
  induction nodes with
  | nil => rfl
  | cons node rest ih =>
      have first := (readable node (by simp)).ofJson?_toJson
      have others := ih fun other member => readable other (by simp [member])
      simp [first, others]

theorem pointOfJson?_ofNat (point : Point) : pointOfJson? (.ofNat point.toNat) = some point := by
  have within : point.toNat ≤ Point.last.toNat := UInt32.le_iff_toNat_le.mp (Point.le_last point)
  simp [pointOfJson?, Json.natural?, Json.ofNat, within]

theorem changeOfJson?_ofMembers {attached detached : List Address}
    (attachedRead : addressesOfJson? (addressesToJson attached) = some attached)
    (detachedRead : addressesOfJson? (addressesToJson detached) = some detached) :
    changeOfJson? (.ofMembers
      [("attach", addressesToJson attached), ("detach", addressesToJson detached)]) =
      some (attached, detached) := by
  simp [changeOfJson?, Json.ofMembers, Json.record?, Json.member?, addressesOrNone?, attachedRead,
    detachedRead]

theorem Readable.ofJson?_toJson {event : Event} (readable : event.Readable) :
    ofJson? event.toJson = some event := by
  have lists : ∀ nodes ∈ event.addressLists,
      addressesOfJson? (addressesToJson nodes) = some nodes := fun nodes listed =>
    addressesOfJson?_addressesToJson (readable nodes listed)
  cases event with
  | topology attached detached | alterChange attached detached =>
      simp [addressLists] at lists
      have change := changeOfJson?_ofMembers lists.1 lists.2
      simp [Json.ofMembers] at change
      simp [toJson, Json.ofMembers, name, ofJson?, change]
  | prepareMigration kind nodes =>
      simp [addressLists] at lists
      simp [toJson, Json.ofMembers, name, ofJson?, Json.record?, Json.member?, lists,
        Migration.Kind.ofJson?_toJson]
  | rangeApplied start stop =>
      simp [toJson, Json.ofMembers, name, ofJson?, Json.record?, Json.member?, pointOfJson?_ofNat]

theorem legible_toJson (event : Event) : event.toJson.Legible := by
  have addresses : ∀ nodes : List Address, (addressesToJson nodes).Legible := by
    intro nodes
    rw [addressesToJson, Json.legible_array_iff]
    simp [Address.toJson, Json.ofString, Json.legible_string]
  have numbers : ∀ value, (Json.ofNat value).Legible := fun value =>
    Json.legible_number_iff.mpr (Json.Token.natural_legible value)
  cases event <;>
    simp [toJson, Json.ofMembers, Json.legible_object_iff, addresses, numbers,
      Migration.Kind.toJson, Json.ofString, Json.legible_string]

/-- The text of an event spells that event. -/
theorem Readable.parse?_render {event : Event} (readable : event.Readable) :
    parse? event.toJson.render.toList = some event := by
  simp [parse?, Json.parse?_render event.legible_toJson, readable.ofJson?_toJson]

/-- The text of an event is no comment. -/
theorem exists_render_eq_cons (event : Event) :
    ∃ rest, event.toJson.render.toList = '{' :: rest := by
  simp [toJson, Json.ofMembers, Json.render, Json.toTokens, Json.Token.text]

theorem control_not_mem_render (event : Event) {char : Char} (control : char < ' ') :
    char ∉ event.toJson.render.toList := fun member =>
  absurd (Json.blank_le_of_mem_render event.legible_toJson member) (Nat.not_le.mpr control)

end Event

end ClusterRing
