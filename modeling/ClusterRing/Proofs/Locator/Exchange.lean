import ClusterRing.Proofs.Locator.Run
import ClusterRing.Proofs.Ring.Lookup

/-!
# Which keys a change of membership moves

Attaching nodes brings placements of these nodes into the live ring, and detaching or
withdrawing nodes takes placements of these nodes out of it. Nothing else happens to
the live ring, also where a moving node is promoted or purged, where the change fails
halfway and where it ends a migration. So only keys of detached nodes are given up, and
only attached nodes take keys over (`membership_change_moves_no_other_key`).
-/

namespace ClusterRing.Locator

variable {start locator : Locator} {node : Address} {attached detached : List Address}

/-- Since a start, the live ring has lost placements of some nodes and gained those of others at most. -/
def Exchanged (attached detached : List Address) (start locator : Locator) : Prop :=
  Ring.Exchange (· ∈ detached) (· ∈ attached) start.ring locator.ring

namespace Exchanged

theorem refl (attached detached : List Address) (locator : Locator) :
    Exchanged attached detached locator locator :=
  ⟨fun _ live _ => live, fun _ live _ => live⟩

theorem attach (member : node ∈ attached) (exchanged : Exchanged attached detached start locator) :
    Exchanged attached detached start (locator.attach node) where
  kept := by
    intro placement live remains
    exact mem_ring_attach.mpr (.inl (exchanged.kept placement live remains))
  old := by
    intro placement live stranger
    rcases mem_ring_attach.mp live with already | ⟨placed, -⟩
    · exact exchanged.old placement already stranger
    · rw [(Layout.mem_placements_iff.mp placed).1] at stranger
      exact absurd member stranger

/-- A step that only takes out placements of one of the detached nodes. -/
theorem of_loss {after : Locator} (member : node ∈ detached)
    (loses : ∀ placement, placement ∈ after.ring → placement ∈ locator.ring)
    (others : ∀ placement ∈ locator.ring, placement ∉ locator.layout.placements node →
      placement ∈ after.ring)
    (exchanged : Exchanged attached detached start locator) :
    Exchanged attached detached start after where
  kept := by
    intro placement live remains
    apply others placement (exchanged.kept placement live remains)
    intro placed
    rw [(Layout.mem_placements_iff.mp placed).1] at remains
    exact remains member
  old placement live stranger := exchanged.old placement (loses placement live) stranger

theorem detach (member : node ∈ detached) (exchanged : Exchanged attached detached start locator) :
    Exchanged attached detached start (locator.detach node).locator :=
  exchanged.of_loss member (fun _ live => (mem_ring_detach.mp live).1)
    fun _ live elsewhere => mem_ring_detach.mpr ⟨live, fun removed => elsewhere removed.1⟩

theorem withdrawNode (member : node ∈ detached)
    (exchanged : Exchanged attached detached start locator) :
    Exchanged attached detached start (locator.withdrawNode node).locator :=
  exchanged.of_loss member (fun _ live => (mem_ring_withdrawNode.mp live).1)
    fun _ live elsewhere => mem_ring_withdrawNode.mpr ⟨live, fun removed => elsewhere removed.1⟩

theorem settle (exchanged : Exchanged attached detached start locator) :
    Exchanged attached detached start locator.settle :=
  exchanged

theorem update (locator : Locator) (attached detached : List Address) :
    Exchanged attached detached locator (locator.update attached detached).locator :=
  update_induction (refl attached detached locator) (fun _ _ member => attach member)
    (fun _ _ member => detach member) fun _ => settle

/-- Withdrawing nodes brings nothing into the live ring. -/
theorem withdraw (locator : Locator) (detached : List Address) :
    Exchanged [] detached locator (locator.withdraw detached).locator :=
  forEach_induction (refl [] detached locator) (fun _ _ member => withdrawNode member)
    fun _ => settle

end Exchanged

/--
In any state, and whether or not the change succeeds: a key that was not with a detached node and
is not with an attached one is where it was. When moving nodes are withdrawn, the nodes that
are announced take over nothing.
-/
theorem membership_change_moves_no_other_key (locator : Locator) (attached detached : List Address)
    (hash : Point) :
    let before := locator.ring.owner? hash
    let updated := (locator.receive (.topology attached detached)).locator.ring.owner? hash
    let withdrawn := (locator.receive (.alterChange attached detached)).locator.ring.owner? hash
    ((∀ node ∈ detached, before ≠ some node) → (∀ node ∈ attached, updated ≠ some node) →
      updated = before) ∧
    ((∀ node ∈ detached, before ≠ some node) → withdrawn = before) := by
  intro before updated withdrawn
  constructor
  · exact (Exchanged.update locator attached detached).owner?_eq
  · intro notDetached
    exact (Exchanged.withdraw locator detached).owner?_eq notDetached (by simp)

/-- One key moves to a node that is attached, another stays, and the points of a third node are missing. -/
theorem keys_stay_while_detaching_fails :
    let locator := (build smallLayout [alpha, beta]).after
      [.prepareMigration .leave [beta], .rangeApplied 7 7, .prepareMigration .join [gamma],
        .rangeApplied 1000000000 2000000000]
    let updated := locator.receive (.topology [gamma] [beta])
    let withdrawn := locator.receive (.alterChange [beta] [gamma])
    updated.verdict = .failed (.notInRing 4 4 beta) ∧
      locator.ring.owner? 3000000000 = some alpha ∧
      updated.locator.ring.owner? 3000000000 = some gamma ∧
      updated.locator.ring.owner? 2500000000 = locator.ring.owner? 2500000000 ∧
      locator.ring.owner? 1500000000 = some gamma ∧
      withdrawn.locator.ring.owner? 2500000000 = locator.ring.owner? 2500000000 := by
  intro locator updated withdrawn
  have evaluated : updated.verdict = .failed (.notInRing 4 4 beta) ∧
      locator.ring.owner? 3000000000 = some alpha ∧
      updated.locator.ring.owner? 3000000000 = some gamma ∧
      locator.ring.owner? 1500000000 = some gamma ∧
      (∀ node ∈ [beta, gamma], locator.ring.owner? 2500000000 ≠ some node) ∧
      ∀ node ∈ [gamma], updated.locator.ring.owner? 2500000000 ≠ some node := by
    decide +kernel
  rcases evaluated with ⟨fails, before, moved, stays, notNamed, notTaken⟩
  have kept := (membership_change_moves_no_other_key locator [gamma] [beta] 2500000000).1
    (fun node member => notNamed node (by simp_all)) notTaken
  have left := (membership_change_moves_no_other_key locator [beta] [gamma] 2500000000).2
    fun node member => notNamed node (by simp_all)
  exact ⟨fails, before, moved, kept, stays, left⟩

end ClusterRing.Locator
