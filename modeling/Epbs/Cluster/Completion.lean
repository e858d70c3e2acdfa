/-
Completion counting: when a job is marked FINISHED.

* `CompletionGuard`: no report of a job is handled while the pop thread holds it,
  every round of the dispatch loops finds a FREE node, and ids are not reused
  before the job is FINISHED;
* `Counted`, `CountsCompletions`: a job is FINISHED exactly when its dispatch is
  complete and as many reports as it has nodes were handled;
* `completion_counted`: so it is along the guarded runs;
* `early_report_lost`: a report handled before the counter is written is lost.
-/
import Epbs.Cluster.Slots

namespace Epbs

/-! ### Counted reports, and when they are -/

/-- The dispatch of a job is complete: the pop thread took it and let go of it. -/
def Master.Dispatched (m : Master) (t : ℕ) : Prop :=
  t < m.popped ∧ ∀ j, m.held ≠ some (j, t)

/-- **Completion counting**, for a job in its slot: its status is FINISHED exactly
when the dispatch is complete and as many reports as it asked for nodes were
handled, and the dispatch has then sent as many submit messages. -/
def Counted (numHosts : ℤ) (m : Master) (t : ℕ) : Prop :=
  let job := m.srv.jobq (slotOf t)
  1 ≤ job.numReqNodes → job.numReqNodes ≤ numHosts →
    (job.jobStat = .finished ↔ m.Dispatched t ∧ m.handled t = job.numReqNodes) ∧
    (m.Dispatched t → m.assigned t = job.numReqNodes)

/-- Completions are counted in every state of the runs whose steps of the master
meet a guard, for every job that has its slot. -/
def CountsCompletions (numHosts : ℤ) (ips : ℤ → Bytes) (G : Master → MasterAct → Prop) :
    Prop :=
  ∀ s, (clusterMachine numHosts lossless ips).Reach (OnMaster numHosts G) s →
    ∀ t, s.master.Owns t → Counted numHosts s.master t

/-- No report of a job is handled while the pop thread holds it, a round of the
dispatch loops does not run past the last node, an id is not reused before its
job is FINISHED, and the copies fit their fields. -/
def CompletionGuard (numHosts : ℤ) (m : Master) : MasterAct → Prop
  | .submit req now => FreshSlots m (.submit req now)
  | .pop _ => m.CommandCopies ∧
      ∀ j t i k, m.pop = .dispatch j t i k → i ≤ j.numReqNodes → k ≤ numHosts
  | .result _ job _ => ∀ j, m.held ≠ some (j, job)
  | _ => True

lemma freshSlots_of_completionGuard {numHosts : ℤ} (m : Master) (a : MasterAct)
    (h : CompletionGuard numHosts m a) : FreshSlots m a := by
  cases a with
  | submit req now => exact h
  | pop now => exact h.1
  | _ => trivial

/-! ### The invariant -/

/-- All jobs are in order, and those in their slots are counted exactly. -/
structure Exactly (numHosts : ℤ) (L : Ledger) : Prop where
  live : Live L
  exact : ∀ t, L.master.Owns t → (L.master.view t).Exact numHosts

/-- The phase of a job past the queue that is not in the dispatch loops. -/
lemma view_dispatching {m : Master} {t : ℕ} {i k : ℤ}
    (h : (m.view t).phase = .dispatching i k) : ∃ j, m.pop = .dispatch j t i k := by
  simp only [Master.view] at h
  split_ifs at h
  cases hpc : m.pop <;> simp only [hpc, PopPc.phase, reduceCtorEq] at h
  · split_ifs at h
  · split_ifs at h with hjob
    cases h
    exact ⟨_, by rw [hjob]⟩

namespace Exactly

variable {L L' : Ledger} {numHosts : ℤ}

/-- What the guard of the master says about the job that takes the step. -/
lemma guard (h : Exactly numHosts L) {a : MasterAct} (hg : CompletionGuard numHosts L.master a)
    {t : ℕ} {act : JobAct} (hact : act.Of t a) {v' : JobView}
    (howns : L.master.Owns t) (hstep : JobStep numHosts (L.master.view t) act v') :
    (L.master.view t).Guard numHosts act := by
  cases act with
  | pop =>
      obtain ⟨now, rfl⟩ := hact
      intro i k hphase hi
      obtain ⟨j, hpc⟩ := view_dispatching hphase
      have hheld := Master.held_of_dispatch hpc
      have hneed := (h.live.tallied.labelled.held j t hheld).2.2.2 howns
      exact hg.2 j t i k hpc (hi.trans_eq hneed.symm)
  | report =>
      obtain ⟨msg, now, rfl⟩ := hact
      have hsent : (L.master.view t).heard < (L.master.view t).sent := by
        cases hstep <;> assumption
      obtain ⟨_, hphase⟩ := h.live.ok t howns
      -- a job with a report to come is being dispatched or past it
      cases hp : (L.master.view t).phase with
      | queued => simp only [hp] at hphase; omega
      | waiting => simp only [hp] at hphase; omega
      | dispatching i k =>
          obtain ⟨j, hpc⟩ := view_dispatching hp
          exact absurd (Master.held_of_dispatch hpc) (hg j)
      | placed => exact hp

/-- **One guarded step of the ledger** keeps the count exact. -/
lemma step (h : Exactly numHosts L) {a : MasterAct}
    (hg : CompletionGuard numHosts L.master a) (hstep : L.step numHosts a = some L') :
    Exactly numHosts L' := by
  have hlive := h.live.step (freshSlots_of_completionGuard _ _ hg) hstep
  refine ⟨hlive, fun t ht => ?_⟩
  cases h.live.jobsStep hstep with
  | same haccepted hviews =>
      rw [Master.owns_congr haccepted] at ht
      rw [hviews]
      exact h.exact t ht
  | one t₀ act hact howns haccepted hjob hlife hviews =>
      rw [Master.owns_congr haccepted] at ht
      by_cases heq : t = t₀
      · subst heq
        exact (h.exact t howns).step (h.live.ok t howns) (h.guard hg hact howns hjob) hjob
      · rw [hviews t fun hslot => heq (ht.eq_of_slotOf_eq howns hslot)]
        exact h.exact t ht
  | submit hact haccepted hnew hlife hviews =>
      by_cases heq : t = L.master.accepted
      · have hpopped := h.live.tallied.labelled.numbered.popped_le
        have hphase : (L'.master.view t).phase = .queued := by
          rw [(hlife t).phase, heq]
          simp [Master.view, hpopped]
        simp only [JobView.Exact, hphase]
      · obtain ⟨hown, hslot⟩ := ht.of_accept haccepted heq
        rw [hviews t hslot]
        exact h.exact t hown

/-- A job is past its dispatch when its dispatch is complete. -/
lemma phase_eq_placed_iff {m : Master} {t : ℕ} :
    (m.view t).phase = .placed ↔ m.Dispatched t := by
  simp only [Master.view, Master.Dispatched, Master.held]
  by_cases hpopped : m.popped ≤ t
  · rw [if_pos hpopped]
    refine ⟨fun h => ?_, fun h => absurd h.1 (not_lt.mpr hpopped)⟩
    cases h
  · rw [if_neg hpopped]
    cases hpc : m.pop with
    | start => simp [PopPc.phase, lt_of_not_ge hpopped]
    | idle => simp [PopPc.phase, lt_of_not_ge hpopped]
    | wait j job count i =>
        by_cases hjob : job = t <;> simp [PopPc.phase, hjob, lt_of_not_ge hpopped]
    | dispatch j job i k =>
        by_cases hjob : job = t <;> simp [PopPc.phase, hjob, lt_of_not_ge hpopped]

/-- What exact counting says of a job in its slot. -/
lemma counted (h : Exactly numHosts L) {t : ℕ} (ht : L.master.Owns t) :
    Counted numHosts L.master t := by
  intro hneed hfits
  have hexact := h.exact t ht
  refine ⟨?_, fun hdisp => ?_⟩
  · rw [← phase_eq_placed_iff]
    exact hexact.finished_iff (h.live.ok t ht) hneed hfits
  · have hphase := phase_eq_placed_iff.mpr hdisp
    simp only [JobView.Exact, hphase] at hexact
    exact (hexact hneed hfits).1

end Exactly

/-- The count is exact in every state of the guarded runs of the cluster. -/
lemma exactly_of_reach {numHosts : ℤ} {ips : ℤ → Bytes} {G : Master → MasterAct → Prop}
    (hG : ∀ m a, G m a → CompletionGuard numHosts m a) {s : Sys}
    (h : (clusterMachine numHosts lossless ips).Reach (OnMaster numHosts G) s) :
    Exactly numHosts (s.ledger numHosts) := by
  have hinit : Exactly numHosts ⟨.init ips, 0⟩ :=
    ⟨live_init ips, fun t ht => absurd ht.1 (Nat.not_lt_zero t)⟩
  exact (ledger_of_cluster h).invariant hinit fun _ _ _ _ hL hg hs => hL.step (hG _ _ hg) hs

/-- **Completions are counted** along all runs in which no report of a job is
handled while the pop thread holds it, every round of the dispatch loops finds a
FREE node, and no id is reused before its job is FINISHED. -/
theorem completion_counted (numHosts : ℤ) (ips : ℤ → Bytes) :
    CountsCompletions numHosts ips (CompletionGuard numHosts) := by
  intro s h t ht
  have hexact := exactly_of_reach (fun _ _ => id) h
  exact hexact.counted ht

/-- Node 1 runs the job it was given and reports before the pop thread writes the
counter. -/
def earlyReport : List SysAct :=
  assignOne ++
    [.deliver (serverSingleJobSubmit serverMachineId 1 [97] 0 0) true 0,
      .node 1 .record, .node 1 .begin, .node 1 (.fork true), .node 1 (.procExit 0),
      .node 1 .join, .node 1 .sendReturn,
      .deliver (Node.jobReturn 1 ⟨0, 0, [97]⟩) true 0, .pop 0, .pop 0]

/-- **An early report is lost**: the job's only report was handled and its
dispatch is complete, but it is RUNNING. -/
theorem early_report_lost : ¬ CountsCompletions 1 (fun _ => []) FreshSlots := by
  intro hall
  have hrun : (((clusterMachine 1 lossless fun _ => []).restrict fun s l =>
      (l.masterAct 1).all fun a => decide (FreshSlots s.master a)).run earlyReport
        (.init fun _ => [])).any (fun s =>
          decide (s.master.accepted = 1) && decide (s.master.popped = 1) &&
          decide ((s.master.srv.jobq 0).numReqNodes = 1) && decide (s.master.handled 0 = 1) &&
          decide ((s.master.srv.jobq 0).jobStat = .running) && s.master.held.isNone) = true := by
    decide +kernel
  obtain ⟨s, hs, hp⟩ := exists_reach_of_tested FreshSlots hrun
  simp only [Bool.and_eq_true, decide_eq_true_eq, Option.isNone_iff_eq_none] at hp
  obtain ⟨⟨⟨⟨⟨haccepted, hpopped⟩, hneed⟩, hheard⟩, hstat⟩, hheld⟩ := hp
  have howns : s.master.Owns 0 := by
    rw [Master.Owns, haccepted]
    exact ⟨Nat.one_pos, by decide⟩
  have hdisp : s.master.Dispatched 0 := by
    rw [Master.Dispatched, hpopped, hheld]
    exact ⟨Nat.one_pos, fun j hj => by cases hj⟩
  have hslot : slotOf 0 = 0 := by decide
  have hcount := hall s hs 0 howns
  simp only [Counted, hslot, hneed, hstat, hheard] at hcount
  cases (hcount le_rfl le_rfl).1.mpr ⟨hdisp, rfl⟩

end Epbs
