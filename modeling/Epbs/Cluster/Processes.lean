/-
Processes and reports: what runs on a node when it reports a job as FINISHED.

* `JoinGuard`: `pthread_join` returns only after the process of the job exited;
* `ProcsOk`: the processes on a node are those of the job whose thread was not
  joined yet, and there is at most one;
* `reports_after_exit`: under that guard a FINISHED report is sent only after the
  process exited, no node is FREE while a process runs on it, and no two
  processes run on one node;
* `report_before_exit`: `execl_thread` returns right after `fork`, so the join
  does not wait for the process.
-/
import Epbs.Cluster.Exclusivity

namespace Epbs

/-! ### Reports and processes -/

/-- When a node is about to report a job, no process of it runs there; on a FREE
node no process runs; and no two processes run on one node. -/
structure ExitedFirst (numHosts : ℤ) (s : Sys) : Prop where
  report : ∀ k j, 1 ≤ k → k ≤ numHosts → (s.node k).pc = .joined j → j.job ∉ (s.node k).procs
  free : ∀ k, 1 ≤ k → k ≤ numHosts → s.master.srv.pcstat k = .free → (s.node k).procs = []
  alone : ∀ k, 1 ≤ k → k ≤ numHosts → (s.node k).procs.length ≤ 1

/-- Reports follow the exit of the process in every state of the guarded runs. -/
def ReportsAfterExit (numHosts : ℤ) (ips : ℤ → Bytes) (G : Sys → SysAct → Prop) : Prop :=
  ∀ s, (clusterMachine numHosts lossless ips).Reach G s → ExitedFirst numHosts s

/-- The thread of a job is joined only after the process it forked exited. -/
def JoinGuard (s : Sys) : SysAct → Prop
  | .node k .join => ∀ j th, (s.node k).pc = .recorded j th → j.job ∉ (s.node k).procs
  | _ => True

/-! ### The processes of a node -/

/-- The processes on a node are of the job whose thread ended and was not joined
yet, and there is at most one. -/
structure ProcsOk (n : Node) : Prop where
  owner : ∀ t ∈ n.procs, ∃ j th, n.executing = some (j, th) ∧ th.pc = .ended ∧ j.job = t
  alone : n.procs.length ≤ 1

namespace ProcsOk

variable {n n' : Node}

lemma init : ProcsOk .init := ⟨nofun, Nat.zero_le 1⟩

/-- Without a thread that has ended there is no process. -/
lemma procs_eq_nil (h : ProcsOk n)
    (hrun : ∀ j th, n.executing = some (j, th) → th.pc ≠ .ended) : n.procs = [] := by
  refine List.eq_nil_iff_forall_not_mem.mpr fun t ht => ?_
  obtain ⟨j, th, hexec, hended, _⟩ := h.owner t ht
  exact hrun j th hexec hended

/-- A node with no processes. -/
lemma of_nil (hprocs : n.procs = []) : ProcsOk n where
  owner t ht := by
    rw [hprocs] at ht
    cases ht
  alone := by
    rw [hprocs]
    exact Nat.zero_le 1

/-- A thread that takes a step has not ended. -/
lemma ne_ended_of_threadStep {pcomm : Bytes} {th th' : ExeclThread} {a : Node.Act}
    (h : Node.threadStep pcomm th a = some th') : th.pc ≠ .ended := by
  intro hended
  cases a <;> simp [Node.threadStep, hended] at h

/-- The thread in hand is the only one. -/
lemma procs_eq_nil_of_threadStep (h : ProcsOk n) {j : NodeJob} {th th' : ExeclThread}
    {a : Node.Act} (hexec : n.executing = some (j, th))
    (hth : Node.threadStep j.pcomm th a = some th') : n.procs = [] := by
  refine h.procs_eq_nil fun j' t hexec' => ?_
  cases hexec.symm.trans hexec'
  exact ne_ended_of_threadStep hth

/-- **One guarded step of a node** keeps its processes in order. -/
lemma nodeStep (h : ProcsOk n) {k : ℤ} {a : Node.Act} {ps : List Packet}
    (hjoin : a = .join → ∀ j th, n.pc = .recorded j th → j.job ∉ n.procs)
    (hstep : Node.NodeStep k n a n' ps) : ProcsOk n' := by
  cases hstep with
  | @record j th hpc =>
      refine ⟨fun t ht => ?_, h.alone⟩
      obtain ⟨j', th', hexec, hrest⟩ := h.owner t ht
      refine ⟨j', th', ?_, hrest⟩
      simpa [Node.executing, hpc] using hexec
  | @thread j th th' a hexec hth hfork =>
      refine of_nil ?_
      rw [Node.procs_setThread]
      exact h.procs_eq_nil_of_threadStep hexec hth
  | @fork j th th' forkOk hexec hth =>
      have hnil := h.procs_eq_nil_of_threadStep hexec hth
      have hended : th'.pc = .ended := by
        simp only [Node.threadStep] at hth
        split_ifs at hth
        cases hth
        rfl
      cases forkOk with
      | false => exact of_nil (by simpa using hnil)
      | true =>
          refine ⟨fun t ht => ⟨j, th', ?_, hended, ?_⟩, ?_⟩
          · rw [Node.executing_setProcs]
            exact Node.executing_setThread th' hexec
          · simpa [hnil, eq_comm] using ht
          · simp [hnil]
  | procExit job hmem =>
      refine ⟨fun t ht => h.owner t (List.mem_of_mem_erase ht), ?_⟩
      exact (List.length_erase_le ..).trans h.alone
  | @join j th hpc hended =>
      -- the guard: the one process there could be has exited
      refine of_nil (List.eq_nil_iff_forall_not_mem.mpr fun t ht => ?_)
      obtain ⟨j', th', hexec, _, rfl⟩ := h.owner t ht
      simp only [Node.executing, hpc] at hexec
      cases hexec
      exact hjoin rfl j th hpc ht
  | sendReturn hpc =>
      exact of_nil (h.procs_eq_nil fun j th hexec => by simp [Node.executing, hpc] at hexec)
  | sendHost hpc =>
      exact of_nil (h.procs_eq_nil fun j th hexec => by simp [Node.executing, hpc] at hexec)

/-- A datagram keeps the processes in order. -/
lemma change (h : ProcsOk n) {k : ℤ} {l : SysAct} (hchange : NodeChange k n l n')
    (hjoin : l = .node k .join → ∀ j th, n.pc = .recorded j th → j.job ∉ n.procs) :
    ProcsOk n' := by
  cases hchange with
  | same => exact h
  | receive hrecv =>
      obtain ⟨hpc, hrest⟩ := Node.receive_cases hrecv
      have hnil : n.procs = [] :=
        h.procs_eq_nil fun j th hexec => by simp [Node.executing, hpc] at hexec
      rcases hrest with ⟨_, rfl⟩ | ⟨_, rfl | rfl⟩
      · exact h
      · exact of_nil hnil
      · exact of_nil hnil
  | cancel hcancel =>
      rcases Node.cancel_cases hcancel with rfl | ⟨j, th, hexec, _, rfl⟩
      · exact h
      · refine ⟨fun t ht => ?_, ?_⟩
        · rw [Node.procs_setThread] at ht
          obtain ⟨j', th', hexec', hended, hjob⟩ := h.owner t ht
          cases hexec.symm.trans hexec'
          exact ⟨j, _, Node.executing_setThread _ hexec, hended, hjob⟩
        · rw [Node.procs_setThread]
          exact h.alone
  | step hl hstep =>
      subst hl
      exact h.nodeStep (fun ha => hjoin (by rw [ha])) hstep

end ProcsOk

/-! ### The cluster -/

/-- A node on which a job's thread was not joined yet has a dispatch under way. -/
lemma dispatchesTo_pos_of_executing {numHosts k : ℤ} {s : Sys} (hk : 1 ≤ k ∧ k ≤ numHosts)
    {j : NodeJob} {th : ExeclThread} (hexec : (s.node k).executing = some (j, th)) :
    0 < dispatchesTo (s.outstanding numHosts) k := by
  have hunanswered : (s.node k).unanswered = some j := by
    unfold Node.executing at hexec
    unfold Node.unanswered
    cases hpc : (s.node k).pc <;> simp_all
  have hdisp : (⟨j.job, k, j.jobId⟩ : Dispatch) ∈ (s.node k).dispatch k := by
    simp [Node.dispatch, hunanswered]
  have hsum : (⟨j.job, k, j.jobId⟩ : Dispatch) ∈
      ∑ i ∈ (hostIds numHosts).toFinset, (s.node i).dispatch i :=
    Multiset.mem_sum.mpr ⟨k, List.mem_toFinset.mpr (mem_hostIds.mpr hk), hdisp⟩
  exact Multiset.countP_pos.mpr ⟨_, Multiset.mem_add.mpr (Or.inr hsum), rfl⟩

/-- **Reports follow the exit**: as long as no thread is joined before the process
it forked has exited, a FINISHED report is sent after the exit, no node is FREE
while a process runs on it, and no two processes run on one node. -/
theorem reports_after_exit (numHosts : ℤ) (ips : ℤ → Bytes) :
    ReportsAfterExit numHosts ips JoinGuard := by
  intro s h
  have hprocs : ∀ k, ProcsOk (s.node k) := by
    refine h.invariant (I := fun s => ∀ k, ProcsOk (s.node k)) (fun _ => .init) ?_
    intro s l s' _ hI hg hs k
    refine (hI k).change (nodeChange_of_sysStep (sysStep_spec hs) k) ?_
    rintro rfl
    exact hg
  have hidle : ∀ k, (∀ j th, (s.node k).executing = some (j, th) → False) →
      (s.node k).procs = [] := fun k hnone =>
    (hprocs k).procs_eq_nil fun j th hexec => (hnone j th hexec).elim
  have hexcl := exclusive_of_reach
    (ledger_of_cluster (G := fun _ _ => True) (h.mono fun _ _ _ _ _ => trivial))
  refine ⟨fun k j _ _ hpc => ?_, fun k hk1 hk2 hfree => ?_, fun k _ _ => (hprocs k).alone⟩
  · rw [hidle k fun j th hexec => by simp [Node.executing, hpc] at hexec]
    exact List.not_mem_nil
  · refine hidle k fun j th hexec => ?_
    have hpos := dispatchesTo_pos_of_executing ⟨hk1, hk2⟩ hexec
    have hbusy : dispatchesTo (s.outstanding numHosts) k
        = if s.master.srv.pcstat k = .busy then 1 else 0 := hexcl.busy k
    rw [hfree] at hbusy
    exact absurd hbusy (ne_of_gt hpos)

/-- Node 1 is given a job, its thread forks the process and is joined. -/
def joinRunning : List SysAct :=
  assignOne ++
    [.deliver (serverSingleJobSubmit serverMachineId 1 [97] 0 0) true 0,
      .node 1 .record, .node 1 .begin, .node 1 (.fork true), .node 1 .join]

/-- **The join does not wait for the process**: the node is about to report a job
whose process runs. -/
theorem report_before_exit : ¬ ReportsAfterExit 1 (fun _ => []) Machine.always := by
  intro hall
  have hrun : ((clusterMachine 1 lossless fun _ => []).run joinRunning
      (.init fun _ => [])).any (fun s =>
        decide ((s.node 1).pc = .joined ⟨0, 0, [97]⟩) && decide ((s.node 1).procs = [0]))
          = true := by decide +kernel
  obtain ⟨s, hs, hp⟩ := Machine.exists_reach_of_run hrun
  simp only [Bool.and_eq_true, decide_eq_true_eq] at hp
  obtain ⟨hpc, hprocs⟩ := hp
  refine (hall s hs).report 1 _ le_rfl le_rfl hpc ?_
  rw [hprocs]
  exact List.mem_singleton_self 0

end Epbs
