/-
Node exclusivity: the status of a node and the dispatches under way to it.

* `Exclusive`: a node is BUSY exactly while one dispatch to it is outstanding,
  and its record names that dispatch; kept by every step of the ledger;
* `node_exclusive`: in the cluster, over any interleaving of the assignment
  steps, the nodes and the reports, and whatever the waiting loop has counted.
-/
import Epbs.Cluster.Ledger

namespace Epbs

/-! ### The invariant of the ledger -/

/-- The number of outstanding dispatches to a node. -/
def dispatchesTo (out : Multiset Dispatch) (k : ℤ) : ℕ := out.countP fun d => d.node = k

/-- Two dispatches to a node that has at most one are the same. -/
lemma eq_of_dispatchesTo_le_one {out : Multiset Dispatch} {k : ℤ}
    (hle : dispatchesTo out k ≤ 1) {d e : Dispatch} (hd : d ∈ out) (he : e ∈ out)
    (hdk : d.node = k) (hek : e.node = k) : d = e := by
  by_contra hne
  have hmem : e ∈ out.erase d := (Multiset.mem_erase_of_ne (Ne.symm hne)).mpr he
  have hpair : d ::ₘ {e} ≤ out := by
    rw [← Multiset.cons_erase hd]
    exact Multiset.cons_le_cons d (Multiset.singleton_le.mpr hmem)
  have htwo := Multiset.countP_le_of_le (fun d : Dispatch => d.node = k) hpair
  rw [← Multiset.cons_zero, Multiset.countP_cons, Multiset.countP_cons, if_pos hdk,
    if_pos hek] at htwo
  rw [dispatchesTo] at hle
  omega

/-- A node is BUSY exactly while one dispatch to it is outstanding; before the
first loop of `job_queue_pop` there is none. -/
structure Exclusive (L : Ledger) : Prop where
  busy : ∀ k, dispatchesTo L.out k = if L.master.srv.pcstat k = .busy then 1 else 0
  record : ∀ d ∈ L.out, L.master.srv.nodesstat d.node = d.jobId
  start : L.master.pop = .start → L.out = 0

lemma exclusive_init (ips : ℤ → Bytes) : Exclusive ⟨.init ips, 0⟩ where
  busy _ := rfl
  record d hd := absurd hd (Multiset.notMem_zero d)
  start _ := rfl

namespace Exclusive

variable {L L' : Ledger}

/-- A step that leaves the nodes and the dispatches as they are. -/
lemma of_same (h : Exclusive L) (hpcstat : L'.master.srv.pcstat = L.master.srv.pcstat)
    (hnodes : L'.master.srv.nodesstat = L.master.srv.nodesstat) (hout : L'.out = L.out)
    (hstart : L'.master.pop = .start → L.master.pop = .start) : Exclusive L' where
  busy k := by rw [hout, hpcstat, h.busy k]
  record d hd := by
    rw [hout] at hd
    rw [hnodes, h.record d hd]
  start hpop := by rw [hout, h.start (hstart hpop)]

/-- The first loop of `job_queue_pop` finds nothing outstanding. -/
lemma freeAll (h : Exclusive L) (hstart : L.master.pop = .start)
    (hpcstat : L'.master.srv.pcstat = L.master.srv.freeAll.pcstat) (hout : L'.out = L.out) :
    Exclusive L' := by
  have hnone : L.out = 0 := h.start hstart
  refine ⟨fun k => ?_, fun d hd => ?_, fun _ => hout.trans hnone⟩
  · have hidle : L.master.srv.pcstat k ≠ .busy := by
      intro hbusy
      have hk := h.busy k
      rw [hnone, if_pos hbusy] at hk
      exact absurd hk Nat.zero_ne_one
    rw [hout, hnone, hpcstat, Server.freeAll_pcstat]
    by_cases hin : inTable maxNumHosts k
    · simp [dispatchesTo, hin]
    · simp [dispatchesTo, hin, hidle]
  · rw [hout, hnone] at hd
    exact absurd hd (Multiset.notMem_zero d)

/-- An assignment of a FREE node: it had no dispatch, and has one now, which its record names. -/
lemma assign (h : Exclusive L) {k jobId : ℤ} (job : ℕ) (hfree : L.master.srv.pcstat k = .free)
    (hpcstat : L'.master.srv.pcstat = (L.master.srv.assign k jobId).pcstat)
    (hnodes : L'.master.srv.nodesstat = (L.master.srv.assign k jobId).nodesstat)
    (hout : L'.out = ⟨job, k, jobId⟩ ::ₘ L.out) (hpop : L'.master.pop ≠ .start) :
    Exclusive L' := by
  have hnone : dispatchesTo L.out k = 0 := by rw [h.busy k, hfree]; rfl
  refine ⟨fun i => ?_, fun d hd => ?_, fun hstart => absurd hstart hpop⟩
  · rw [hout, hpcstat, Server.assign_pcstat, dispatchesTo, Multiset.countP_cons]
    by_cases hik : i = k
    · subst hik
      rw [← dispatchesTo, hnone, Function.update_self, if_pos rfl, if_pos rfl]
    · rw [← dispatchesTo, h.busy i, Function.update_of_ne hik, if_neg (Ne.symm hik), add_zero]
  · rw [hnodes, Server.assign_nodesstat]
    rw [hout] at hd
    rcases Multiset.mem_cons.mp hd with rfl | hd
    · rw [Function.update_self]
    · have hne : d.node ≠ k := by
        intro heq
        have := (Multiset.countP_pos (p := fun d : Dispatch => d.node = k)).mpr ⟨d, hd, heq⟩
        rw [dispatchesTo] at hnone
        omega
      rw [Function.update_of_ne hne, h.record d hd]

/-- The report of an outstanding dispatch: its node is FREE again, and had no other one. -/
lemma report (h : Exclusive L) {d : Dispatch} (hd : d ∈ L.out)
    (hpcstat : L'.master.srv.pcstat = Function.update L.master.srv.pcstat d.node .free)
    (hnodes : L'.master.srv.nodesstat = L.master.srv.nodesstat)
    (hout : L'.out = L.out.erase d) (hpop : L'.master.pop = L.master.pop) :
    Exclusive L' := by
  have hsplit : ∀ k, dispatchesTo L.out k
      = dispatchesTo (L.out.erase d) k + if d.node = k then 1 else 0 := by
    intro k
    conv_lhs => rw [← Multiset.cons_erase hd]
    exact Multiset.countP_cons ..
  refine ⟨fun i => ?_, fun e he => ?_, fun hstart => ?_⟩
  · have hi := h.busy i
    rw [hsplit i] at hi
    rw [hout, hpcstat]
    by_cases hik : d.node = i
    · subst hik
      rw [if_pos rfl] at hi
      rw [Function.update_self, if_neg (by decide)]
      split_ifs at hi
      all_goals omega
    · rw [if_neg hik, add_zero] at hi
      rw [Function.update_of_ne (Ne.symm hik), hi]
  · rw [hnodes, h.record e (Multiset.mem_of_mem_erase (hout ▸ he))]
  · rw [hpop] at hstart
    rw [hout, h.start hstart]
    rfl

/-- A step of the pop thread. -/
lemma popStep {numHosts now : ℤ} {m' : Master} {ps : List Packet} (h : Exclusive L)
    (hstep : PopStep numHosts now L.master m' ps) :
    Exclusive ⟨m', L.out + (ps.filterMap Packet.dispatch : Multiset Dispatch)⟩ := by
  cases hstep with
  | init hpc => exact h.freeAll hpc rfl (add_zero _)
  | empty hpc hempty => exact h.of_same rfl rfl (add_zero _) id
  | take hpc htake hfits =>
      obtain ⟨_, _, _, _, rfl⟩ := jobQueueTake_some htake
      exact h.of_same rfl rfl (add_zero _) nofun
  | skip hpc htake hlarge =>
      obtain ⟨_, _, _, _, rfl⟩ := jobQueueTake_some htake
      exact h.of_same rfl rfl (add_zero _) nofun
  | scan hpc hi => exact h.of_same rfl rfl (add_zero _) nofun
  | again hpc hi hcount => exact h.of_same rfl rfl (add_zero _) nofun
  | enough hpc hi hcount => exact h.of_same rfl rfl (add_zero _) nofun
  | @assign j job i k hpc hi hk hin hfree =>
      exact h.assign job hfree rfl rfl
        ((add_comm _ _).trans (Multiset.singleton_add ..)) nofun
  | next hpc hi hk hbusy => exact h.of_same rfl rfl (add_zero _) nofun
  | giveUp hpc hi hk => exact h.of_same rfl rfl (add_zero _) nofun
  | finish hpc hi hin => exact h.of_same rfl rfl (add_zero _) nofun

/-- **One step of the ledger** keeps the invariant. -/
lemma step {numHosts : ℤ} {a : MasterAct} (h : Exclusive L)
    (hstep : L.step numHosts a = some L') : Exclusive L' := by
  obtain ⟨ps, hm, hans, hout⟩ := ledgerStep_spec hstep
  obtain ⟨m', out'⟩ := L'
  dsimp only at hm hout
  subst hout
  cases hm with
  | submit req now pcomm username => exact h.of_same rfl rfl (add_zero _) id
  | cancel jobId hhosts =>
      refine h.of_same rfl rfl ?_ id
      simp [outAfter, List.filterMap_map, Function.comp_def]
  | pop now hpop => exact h.popStep hpop
  | other msg job now hm2 => exact h.of_same rfl rfl (if_neg hm2) id
  | report msg job now hm2 hsrc hjob hmore =>
      exact h.report (hans hm2) rfl rfl (if_pos hm2) rfl
  | lastReport msg job now hm2 hsrc hjob hlast =>
      exact h.report (hans hm2) rfl rfl (if_pos hm2) rfl
  | hostStatus msg job => exact h.of_same rfl rfl (add_zero _) id

end Exclusive

/-- The invariant holds in every state the ledger reaches. -/
lemma exclusive_of_reach {numHosts : ℤ} {ips : ℤ → Bytes} {G : Ledger → MasterAct → Prop}
    {L : Ledger} (h : (ledgerMachine numHosts ips).Reach G L) : Exclusive L :=
  h.invariant (exclusive_init ips) fun _ _ _ _ hL _ hs => hL.step hs

/-! ### The cluster -/

/-- **Node exclusivity.** Over a lossless network and in every reachable state, a
node has at most one outstanding dispatch (submit message in flight, job on the
node, or report in flight), and is BUSY exactly when it has one; so no node
holds two unfinished jobs. -/
theorem node_exclusive {numHosts : ℤ} {ips : ℤ → Bytes} {s : Sys}
    (h : (clusterMachine numHosts lossless ips).Reach Machine.always s) (k : ℤ) :
    dispatchesTo (s.outstanding numHosts) k ≤ 1 ∧
    (s.master.srv.pcstat k = .busy ↔ dispatchesTo (s.outstanding numHosts) k = 1) ∧
    ∀ d ∈ s.outstanding numHosts, ∀ e ∈ s.outstanding numHosts,
      d.node = k → e.node = k → d = e := by
  have hled := ledger_of_cluster (G := fun _ _ => True) (h.mono fun _ _ _ _ _ => trivial)
  have hbusy : dispatchesTo (s.outstanding numHosts) k
      = if s.master.srv.pcstat k = .busy then 1 else 0 := (exclusive_of_reach hled).busy k
  have hle : dispatchesTo (s.outstanding numHosts) k ≤ 1 := by
    rw [hbusy]
    split_ifs
    all_goals omega
  refine ⟨hle, ?_, fun d hd e he => eq_of_dispatchesTo_le_one hle hd he⟩
  rw [hbusy]
  simp

/-- A SUBMIT of the command `a` for one node, taken by the pop thread and sent to
node 1. -/
def assignOne : List SysAct :=
  [.submit ⟨1, [97], 2, 1, [117], 2⟩ 0, .pop 0, .pop 0, .pop 0, .pop 0, .pop 0]

/-- In a cluster of one node, the assigned node has one outstanding dispatch. -/
theorem node_exclusive_assigned : ∃ s,
    (clusterMachine 1 lossless fun _ => []).Reach Machine.always s ∧
      dispatchesTo (s.outstanding 1) 1 = 1 := by
  have hrun : ((clusterMachine 1 lossless fun _ => []).run assignOne
      (clusterMachine 1 lossless fun _ => []).init).any
        (fun s => decide (s.master.srv.pcstat 1 = .busy)) = true := by decide +kernel
  obtain ⟨s, hs, hbusy⟩ := Machine.exists_reach_of_run hrun
  exact ⟨s, hs, (node_exclusive hs 1).2.1.mp (of_decide_eq_true hbusy)⟩

end Epbs
