/-
The ledger: the master together with the dispatches whose report it has not
handled, each of which is answered by one report.

* `Ledger`, `ledgerMachine`: what the master sees of the cluster, with no nodes
  and no packets: a report can be handled when its dispatch is outstanding, and
  is not outstanding after that;
* `ledgerStep_spec`: what a step can do;
* `ledger_of_cluster`: the cluster over a lossless network refines the ledger,
  under any guard on the steps of the master.
-/
import Epbs.Cluster.Network

namespace Epbs

/-! ### The abstract machine -/

/-- The master and the dispatches it waits for. Where a dispatch is, in a packet, on its node or in
a report, is left open. -/
structure Ledger where
  master : Master
  out : Multiset Dispatch

/-- The dispatch a report answers. -/
def Msg.reported (msg : Msg) (job : ℕ) : Dispatch := ⟨job, msg.src, msg.m1⟩

/-- A FINISHED report answers an outstanding dispatch. -/
def Answers (out : Multiset Dispatch) : MasterAct → Prop
  | .result msg job _ => msg.m2 = JobStat.finished.code → msg.reported job ∈ out
  | _ => True

instance (out : Multiset Dispatch) (a : MasterAct) : Decidable (Answers out a) := by
  cases a <;> unfold Answers <;> infer_instance

/-- The outstanding dispatches after a step of the master that sends `ps`. -/
def outAfter (out : Multiset Dispatch) (ps : List Packet) : MasterAct → Multiset Dispatch
  | .result msg job _ =>
      if msg.m2 = JobStat.finished.code then out.erase (msg.reported job) else out
  | _ => out + (ps.filterMap Packet.dispatch : Multiset Dispatch)

/-- A step of the ledger. -/
def Ledger.step (numHosts : ℤ) (a : MasterAct) (L : Ledger) : Option Ledger :=
  (L.master.step numHosts a).bind fun (m, ps) =>
    if Answers L.out a then some ⟨m, outAfter L.out ps a⟩ else none

/-- The runs of the ledger. -/
def ledgerMachine (numHosts : ℤ) (ips : ℤ → Bytes) : Machine Ledger MasterAct where
  init := ⟨.init ips, 0⟩
  step := Ledger.step numHosts

/-- A step of the ledger is a step of the master; a report answers a dispatch. -/
lemma ledgerStep_spec {numHosts : ℤ} {a : MasterAct} {L L' : Ledger}
    (h : L.step numHosts a = some L') :
    ∃ ps, MasterStep numHosts L.master a L'.master ps ∧ Answers L.out a ∧
      L'.out = outAfter L.out ps a := by
  obtain ⟨⟨m, ps⟩, hm, h⟩ := Option.bind_eq_some_iff.mp h
  simp only at h
  split_ifs at h with hans
  cases h
  exact ⟨ps, masterStep_spec hm, hans, rfl⟩

/-- A master's step that needs no report, or answers one, is a ledger's step. -/
lemma ledger_step_of_master {numHosts : ℤ} {a : MasterAct} {L : Ledger} {m : Master}
    {ps : List Packet} (hm : L.master.step numHosts a = some (m, ps)) (hans : Answers L.out a) :
    L.step numHosts a = some ⟨m, outAfter L.out ps a⟩ := by
  rw [Ledger.step, hm, Option.bind_some]
  exact if_pos hans

/-! ### The dispatches in the cluster -/

/-- The dispatch of a packet, as a multiset. -/
def Packet.dispatches (p : Packet) : Multiset Dispatch := (p.dispatch.toList : Multiset Dispatch)

@[simp] lemma dispatch_serverSingleJobSubmit (localId k : ℤ) (command : Bytes) (jobId : ℤ)
    (job : ℕ) :
    (serverSingleJobSubmit localId k command jobId job).dispatch = some ⟨job, k, jobId⟩ := rfl

@[simp] lemma dispatch_serverSingleJobCancel (localId jobId k : ℤ) (job : ℕ) :
    (serverSingleJobCancel localId jobId k job).dispatch = none := rfl

@[simp] lemma dispatch_jobReturn (k : ℤ) (j : NodeJob) :
    (Node.jobReturn k j).dispatch = some ⟨j.job, k, j.jobId⟩ := rfl

@[simp] lemma dispatch_hostReport (k : ℤ) (j : NodeJob) :
    (Node.hostReport k j).dispatch = none := rfl

section Outstanding

variable (numHosts : ℤ) {s : Sys}

/-- Packets sent over a lossless network add their dispatches. -/
lemma outstanding_send (ps : List Packet) :
    (s.send lossless ps).outstanding numHosts
      = s.outstanding numHosts + (ps.filterMap Packet.dispatch : Multiset Dispatch) := by
  have hall : ps.filter (lossless s) = ps := List.filter_eq_self.mpr fun _ _ => rfl
  rw [Sys.outstanding, Sys.outstanding, Sys.send, hall, List.filterMap_append,
    ← Multiset.coe_add]
  exact add_right_comm _ _ _

/-- A packet taken from the network takes its dispatch with it. -/
lemma outstanding_take {p : Packet} (hp : p ∈ s.flight) :
    s.outstanding numHosts = (s.take p).outstanding numHosts + p.dispatches := by
  have hperm : (s.flight.filterMap Packet.dispatch).Perm
      ((p :: s.flight.erase p).filterMap Packet.dispatch) :=
    (List.perm_cons_erase hp).filterMap _
  have hsplit : (p :: s.flight.erase p).filterMap Packet.dispatch
      = p.dispatch.toList ++ (s.flight.erase p).filterMap Packet.dispatch := by
    cases hd : p.dispatch <;> simp [hd]
  rw [Sys.outstanding, Multiset.coe_eq_coe.mpr hperm, hsplit, ← Multiset.coe_add,
    add_assoc, add_comm]
  rfl

variable {numHosts} in
/-- A replaced node exchanges the dispatch it works on. -/
lemma outstanding_setNode {k : ℤ} (hk : 1 ≤ k ∧ k ≤ numHosts) (n : Node) :
    (s.setNode k n).outstanding numHosts + (s.node k).dispatch k
      = s.outstanding numHosts + n.dispatch k := by
  have hmem : k ∈ (hostIds numHosts).toFinset := List.mem_toFinset.mpr (mem_hostIds.mpr hk)
  have hrest : ∑ i ∈ (hostIds numHosts).toFinset.erase k, ((s.setNode k n).node i).dispatch i
      = ∑ i ∈ (hostIds numHosts).toFinset.erase k, (s.node i).dispatch i := by
    refine Finset.sum_congr rfl fun i hi => ?_
    rw [Sys.setNode_node_of_ne s n (Finset.ne_of_mem_erase hi)]
  have hnew := Finset.add_sum_erase _ (fun i => ((s.setNode k n).node i).dispatch i) hmem
  have hold := Finset.add_sum_erase _ (fun i => (s.node i).dispatch i) hmem
  simp only [Sys.setNode_node_self] at hnew
  rw [Sys.outstanding, Sys.outstanding, ← hnew, ← hold, hrest, Sys.setNode_flight]
  abel

end Outstanding

/-! ### The refinement -/

/-- What the ledger sees of a cluster. -/
def Sys.ledger (numHosts : ℤ) (s : Sys) : Ledger := ⟨s.master, s.outstanding numHosts⟩

/-- A node that reads no datagram hands its dispatch to the network or keeps it. -/
lemma dispatch_nodeStep {k : ℤ} {n n' : Node} {a : Node.Act} {ps : List Packet}
    (h : Node.NodeStep k n a n' ps) :
    n'.dispatch k + (ps.filterMap Packet.dispatch : Multiset Dispatch) = n.dispatch k := by
  cases h with
  | record hpc => simp [Node.dispatch, Node.unanswered, hpc]
  | thread hexec hth hfork => simp [Node.dispatch]
  | fork forkOk hexec hth => simp [Node.dispatch]
  | procExit job hmem => simp [Node.dispatch]
  | join hpc hended => simp [Node.dispatch, Node.unanswered, hpc]
  | sendReturn hpc => simp [Node.dispatch, Node.unanswered, hpc]
  | sendHost hpc => simp [Node.dispatch, Node.unanswered, hpc]

/-- A packet read by the job loop of a node becomes the dispatch of the node. -/
lemma dispatch_receive {k : ℤ} {n n' : Node} {p : Packet} {createOk : Bool}
    (hport : p.dest.port = interJobPort) (hhost : p.dest.host = k)
    (h : n.receive p.msg p.job createOk = some n') :
    n'.dispatch k = n.dispatch k + p.dispatches := by
  have hrelt : p.dest.port ≠ jobReltPort := by rw [hport]; decide
  obtain ⟨hpc, ⟨htype, rfl⟩ | ⟨htype, rfl | rfl⟩⟩ := Node.receive_cases h
  · simp [Packet.dispatches, Packet.dispatch, htype, hrelt]
  all_goals
    simp [Node.dispatch, Node.unanswered, hpc, Packet.dispatches, Packet.dispatch, htype, hport,
      hhost, Node.jobOfMsg]

/-- A cancel leaves the dispatch of the node. -/
lemma dispatch_cancel {k : ℤ} {n n' : Node} (h : n.cancel = some n') :
    n'.dispatch k = n.dispatch k := by
  rcases Node.cancel_cases h with rfl | ⟨j, th, _, _, rfl⟩
  · rfl
  · rw [Node.dispatch, Node.dispatch, Node.unanswered_setThread]

/-- The dispatch of a packet that `job_queue_result_1` reads. -/
lemma dispatches_result {p : Packet} (hport : p.dest.port = jobReltPort) :
    p.dispatches
      = if p.msg.m2 = JobStat.finished.code then {p.msg.reported p.job} else 0 := by
  have hinter : jobReltPort ≠ interJobPort := by decide
  by_cases hm2 : p.msg.m2 = JobStat.finished.code <;>
    simp [Packet.dispatches, Packet.dispatch, hinter, hport, hm2, Msg.reported]

/-- A packet for another port carries no dispatch. -/
lemma dispatches_eq_zero {p : Packet} (hinter : p.dest.port ≠ interJobPort)
    (hrelt : p.dest.port ≠ jobReltPort) : p.dispatches = 0 := by
  simp [Packet.dispatches, Packet.dispatch, hinter, hrelt]

/-- What is sent outside `job_queue_result_1` is added to the ledger. -/
lemma outAfter_of_notResult {a : MasterAct} (ha : ∀ msg job now, a ≠ .result msg job now)
    (out : Multiset Dispatch) (ps : List Packet) :
    outAfter out ps a = out + (ps.filterMap Packet.dispatch : Multiset Dispatch) := by
  cases a with
  | result msg job now => exact absurd rfl (ha msg job now)
  | _ => rfl

/-- Only FINISHED reports have something to answer. -/
lemma answers_of_notResult {a : MasterAct} (ha : ∀ msg job now, a ≠ .result msg job now)
    (out : Multiset Dispatch) : Answers out a := by
  cases a with
  | result msg job now => exact absurd rfl (ha msg job now)
  | _ => trivial

/-- A report that is read was outstanding, and is so no longer. -/
lemma ledger_result {numHosts : ℤ} {s : Sys} {p : Packet} {now : ℤ} {m : Master}
    (hp : p ∈ s.flight) (hport : p.dest.port = jobReltPort)
    (hm : s.master.result p.msg p.job now = some m) :
    (s.ledger numHosts).step numHosts (.result p.msg p.job now) =
      some (((s.take p).setMaster m).ledger numHosts) := by
  have hsplit := outstanding_take numHosts hp
  rw [dispatches_result hport] at hsplit
  have hstep : (s.ledger numHosts).master.step numHosts (.result p.msg p.job now)
      = some (m, []) := by
    rw [Master.step]
    exact congrArg (Option.map (·, [])) hm
  have hans : Answers (s.outstanding numHosts) (.result p.msg p.job now) := by
    intro hm2
    rw [hsplit, if_pos hm2]
    exact Multiset.mem_add.mpr (Or.inr (Multiset.mem_singleton_self _))
  have hout : outAfter (s.outstanding numHosts) [] (.result p.msg p.job now)
      = (s.take p).outstanding numHosts := by
    rw [outAfter, hsplit]
    by_cases hm2 : p.msg.m2 = JobStat.finished.code
    · rw [if_pos hm2, if_pos hm2, add_comm, Multiset.singleton_add, Multiset.erase_cons_head]
    · rw [if_neg hm2, if_neg hm2, add_zero]
  rw [ledger_step_of_master hstep hans]
  exact congrArg (fun out => some (Ledger.mk m out)) hout

/-- A host report is no dispatch. -/
lemma ledger_hostStatus {numHosts : ℤ} {s : Sys} {p : Packet} {m : Master}
    (hp : p ∈ s.flight) (hport : p.dest.port = hostStatPort)
    (hm : s.master.hostStatus p.msg p.job = some m) :
    (s.ledger numHosts).step numHosts (.hostStatus p.msg p.job) =
      some (((s.take p).setMaster m).ledger numHosts) := by
  have hnone : p.dispatches = 0 := by
    rw [dispatches_eq_zero] <;> rw [hport] <;> decide
  have hstep : (s.ledger numHosts).master.step numHosts (.hostStatus p.msg p.job)
      = some (m, []) := by
    rw [Master.step]
    exact congrArg (Option.map (·, [])) hm
  have hout : outAfter (s.outstanding numHosts) [] (.hostStatus p.msg p.job)
      = (s.take p).outstanding numHosts := by
    calc outAfter (s.outstanding numHosts) [] (.hostStatus p.msg p.job)
        = s.outstanding numHosts := add_zero _
      _ = (s.take p).outstanding numHosts := by
          rw [outstanding_take numHosts hp, hnone, add_zero]
  rw [ledger_step_of_master hstep trivial]
  exact congrArg (fun out => some (Ledger.mk m out)) hout

/-- **One step of the cluster** over a lossless network is a step of the ledger,
or nothing the ledger sees. -/
lemma ledger_sysStep {numHosts : ℤ} {s s' : Sys} {l : SysAct}
    (h : SysStep numHosts lossless s l s') :
    s'.ledger numHosts = s.ledger numHosts ∨
      ∃ a, l.masterAct numHosts = some a ∧
        (s.ledger numHosts).step numHosts a = some (s'.ledger numHosts) := by
  cases h with
  | @request l a m ps hl hreq hm =>
      refine Or.inr ⟨a, hl, ?_⟩
      have hout := (outAfter_of_notResult hreq.notResult (s.outstanding numHosts) ps).trans
        (outstanding_send numHosts (s := s.setMaster m) ps).symm
      rw [ledger_step_of_master hm (answers_of_notResult hreq.notResult _)]
      exact congrArg (fun out => some (Ledger.mk m out)) hout
  | @result p createOk now m hp hport hl hm => exact Or.inr ⟨_, hl, ledger_result hp hport hm⟩
  | @hostStatus p createOk now m hp hport hl hm =>
      exact Or.inr ⟨_, hl, ledger_hostStatus hp hport hm⟩
  | @receive p k createOk now n hp hport hhost hk hn =>
      -- the dispatch moves from the packet to the node
      refine Or.inl ?_
      have hnode := outstanding_setNode (s := s.take p) hk n
      rw [Sys.take_node, dispatch_receive hport hhost hn, ← add_assoc, add_right_comm] at hnode
      have hsame := add_right_cancel hnode
      rw [Sys.ledger, Sys.ledger, hsame, ← outstanding_take numHosts hp]
      rfl
  | @cancelNode p k createOk now n hp hport hhost hk hn =>
      refine Or.inl ?_
      have hnone : p.dispatches = 0 := by
        rw [dispatches_eq_zero] <;> rw [hport] <;> decide
      have hnode := outstanding_setNode (s := s.take p) hk n
      rw [Sys.take_node, dispatch_cancel hn] at hnode
      have hsplit := outstanding_take numHosts hp
      rw [Sys.ledger, Sys.ledger, add_right_cancel hnode, hsplit, hnone, add_zero]
      rfl
  | @node k a n ps hk hn =>
      -- and from the node to its report
      refine Or.inl ?_
      have hnode := outstanding_setNode (s := s) hk n
      have hkeep := dispatch_nodeStep (Node.nodeStep_spec hn)
      rw [← hkeep, ← add_assoc, add_right_comm] at hnode
      rw [Sys.ledger, Sys.ledger, outstanding_send, ← add_right_cancel hnode]
      rfl

/-- **The cluster refines the ledger.** A guard on the steps of the master, kept
along a run of the cluster over a lossless network, is kept along the run of the
ledger it stands for. -/
theorem ledger_of_cluster {numHosts : ℤ} {ips : ℤ → Bytes} {G : Master → MasterAct → Prop}
    {s : Sys}
    (h : (clusterMachine numHosts lossless ips).Reach (OnMaster numHosts G) s) :
    (ledgerMachine numHosts ips).Reach (fun L a => G L.master a) (s.ledger numHosts) := by
  refine h.simulate (f := Sys.ledger numHosts) ?_ fun s l s' _ _ hg hs => ?_
  · have hnone : (Sys.init ips).outstanding numHosts = 0 := by
      simp [Sys.outstanding, Sys.init, Node.dispatch, Node.unanswered, Node.init]
    exact congrArg (Ledger.mk _) hnone
  · rcases ledger_sysStep (sysStep_spec hs) with heq | ⟨a, ha, hstep⟩
    · exact Or.inl heq
    · exact Or.inr ⟨a, hg a ha, hstep⟩

end Epbs
