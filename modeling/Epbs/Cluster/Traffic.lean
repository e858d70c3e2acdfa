/-
What is under way between the master and the nodes, and how it comes to rest.

* `Carried`, `Carrying`: the packets in flight are submit and cancel messages to nodes of the
  host list and reports from them; along every run and over any network;
* `Sys.work`: how much the nodes and the packets in flight still have to do;
* `Sys.AtRest`: the network is empty and every node waits for a datagram;
* `Settles`, `exists_settling`: until then there is a node that can take a step or a packet
  that can be delivered, which leaves less to do.
-/
import Epbs.Cluster.Cancel
import Epbs.Cluster.Order

namespace Epbs

/-! ### The packets in flight -/

/-- A message of the master to a node of the host list, or a report from one. -/
inductive Carried (numHosts : ℤ) : Packet → Prop
  | submit {k : ℤ} (hk : 1 ≤ k ∧ k ≤ numHosts) (command : Bytes) (jobId : ℤ) (job : ℕ) :
      Carried numHosts (serverSingleJobSubmit serverMachineId k command jobId job)
  | cancel {k : ℤ} (hk : 1 ≤ k ∧ k ≤ numHosts) (jobId : ℤ) (job : ℕ) :
      Carried numHosts (serverSingleJobCancel serverMachineId jobId k job)
  | jobReturn {k : ℤ} (hk : 1 ≤ k ∧ k ≤ numHosts) (j : NodeJob) :
      Carried numHosts (Node.jobReturn k j)
  | hostReport {k : ℤ} (hk : 1 ≤ k ∧ k ≤ numHosts) (j : NodeJob) :
      Carried numHosts (Node.hostReport k j)

/-- Every packet in flight is one of these. The master sends to its hosts only, so that what the
nodes answer names a host too. -/
structure Carrying (numHosts : ℤ) (s : Sys) : Prop where
  placing : Placing numHosts s.master
  flight : ∀ p ∈ s.flight, Carried numHosts p

/-- What the master sends. -/
lemma carried_masterStep {numHosts : ℤ} {m m' : Master} {a : MasterAct} {ps : List Packet}
    (h : Placing numHosts m) (hstep : MasterStep numHosts m a m' ps) :
    ∀ p ∈ ps, Carried numHosts p := by
  intro p hp
  cases hstep with
  | cancel jobId hhosts =>
      obtain ⟨k, hk, rfl⟩ := List.mem_map.mp hp
      exact .cancel (mem_hostIds.mp (List.mem_filter.mp hk).1) jobId _
  | pop now hpop =>
      cases hpop with
      | assign hpc hi hk hin hfree =>
          obtain rfl := List.mem_singleton.mp hp
          exact .submit ⟨(h.rounds _ _ _ _ hpc).2, hk⟩ _ _ _
      | _ => cases hp
  | _ => cases hp

/-- What a node sends. -/
lemma carried_nodeStep {numHosts k : ℤ} {n n' : Node} {a : Node.Act} {ps : List Packet}
    (hk : 1 ≤ k ∧ k ≤ numHosts) (h : Node.NodeStep k n a n' ps) :
    ∀ p ∈ ps, Carried numHosts p := by
  intro p hp
  cases h with
  | sendReturn hpc =>
      obtain rfl := List.mem_singleton.mp hp
      exact .jobReturn hk _
  | sendHost hpc =>
      obtain rfl := List.mem_singleton.mp hp
      exact .hostReport hk _
  | _ => cases hp

namespace Carrying

variable {numHosts : ℤ} {s s' : Sys} {accepts : Network}

lemma init (numHosts : ℤ) (ips : ℤ → Bytes) : Carrying numHosts (.init ips) :=
  ⟨placing_init numHosts ips, fun _ hp => absurd hp List.not_mem_nil⟩

/-- Packets that are sent join those in flight. -/
lemma send (h : Carrying numHosts s) {ps : List Packet} (hps : ∀ p ∈ ps, Carried numHosts p) :
    Carrying numHosts (s.send accepts ps) := by
  refine ⟨h.placing, fun p hp => ?_⟩
  rcases List.mem_append.mp hp with hold | hnew
  · exact h.flight p hold
  · exact hps p (List.mem_filter.mp hnew).1

/-- **One step of the cluster** puts no other packet into flight. -/
lemma step (h : Carrying numHosts s) {l : SysAct} (hstep : SysStep numHosts accepts s l s') :
    Carrying numHosts s' := by
  have htake : ∀ p q, q ∈ (s.take p).flight → Carried numHosts q :=
    fun _ q hq => h.flight q (List.mem_of_mem_erase hq)
  cases hstep with
  | @request l a m ps hl hreq hm =>
      have hm := masterStep_spec hm
      exact send (s := s.setMaster m) ⟨h.placing.step hm, h.flight⟩
        (carried_masterStep h.placing hm)
  | result hp hport hl hm => exact ⟨h.placing.step (masterStep_result hm), htake _⟩
  | @hostStatus p createOk now m hp hport hl hm =>
      have hm : s.master.step numHosts (.hostStatus p.msg p.job) = some (m, []) :=
        congrArg (Option.map (·, [])) hm
      exact ⟨h.placing.step (masterStep_spec hm), htake _⟩
  | receive hp hport hhost hk hn => exact ⟨h.placing, htake _⟩
  | cancelNode hp hport hhost hk hn => exact ⟨h.placing, htake _⟩
  | @node k a n ps hk hn =>
      exact send (s := s.setNode k n) ⟨h.placing, h.flight⟩
        (carried_nodeStep hk (Node.nodeStep_spec hn))

end Carrying

/-- No other packets are in flight, along any run and over any network. -/
lemma carrying_of_reach {numHosts : ℤ} {accepts : Network} {ips : ℤ → Bytes}
    {G : Sys → SysAct → Prop} {s : Sys}
    (h : (clusterMachine numHosts accepts ips).Reach G s) : Carrying numHosts s :=
  h.invariant (.init numHosts ips) fun _ _ _ _ hI _ hs => hI.step (sysStep_spec hs)

/-! ### What is left to do -/

/-- The steps of `execl_thread` before it ends. -/
def ThreadPc.work : ThreadPc → ℕ
  | .start => 3
  | .sleeping => 2
  | .forking => 1
  | .ended => 0

/-- The steps of a node before it waits for the next datagram, and the deliveries of the
reports it has to send. -/
def NodePc.work : NodePc → ℕ
  | .created _ th => th.pc.work + 6
  | .recorded _ th => th.pc.work + 5
  | .joined _ => 4
  | .returned _ => 2
  | .recv | .exited _ => 0

/-- A message for a job loop is work for a node, other packets are only delivered. -/
def Packet.work (p : Packet) : ℕ := if p.dest.port = interJobPort then 10 else 1

/-- What the nodes and the packets in flight still have to do. -/
def Sys.work (numHosts : ℤ) (s : Sys) : ℕ :=
  (s.flight.map Packet.work).sum + ∑ k ∈ (hostIds numHosts).toFinset, (s.node k).pc.work

section Work

variable {numHosts : ℤ} {s : Sys}

/-- Packets sent over a lossless network are work. -/
lemma work_send (numHosts : ℤ) (s : Sys) (ps : List Packet) :
    (s.send lossless ps).work numHosts = s.work numHosts + (ps.map Packet.work).sum := by
  have hall : ps.filter (lossless s) = ps := List.filter_eq_self.mpr fun _ _ => rfl
  rw [Sys.work, Sys.work, Sys.send, hall, List.map_append, List.sum_append]
  exact add_right_comm _ _ _

/-- A packet is no longer work once it is taken. -/
lemma work_take (numHosts : ℤ) {p : Packet} (hp : p ∈ s.flight) :
    s.work numHosts = (s.take p).work numHosts + p.work := by
  have hsum : (s.flight.map Packet.work).sum
      = p.work + ((s.flight.erase p).map Packet.work).sum :=
    ((List.perm_cons_erase hp).map Packet.work).sum_eq
  rw [Sys.work, Sys.work, hsum]
  show p.work + _ + _ = ((s.flight.erase p).map Packet.work).sum + _ + p.work
  rw [add_assoc, add_comm]
  rfl

/-- A replaced node has its own work to do. -/
lemma work_setNode {k : ℤ} (hk : 1 ≤ k ∧ k ≤ numHosts) (n : Node) :
    (s.setNode k n).work numHosts + (s.node k).pc.work = s.work numHosts + n.pc.work := by
  have hmem : k ∈ (hostIds numHosts).toFinset := List.mem_toFinset.mpr (mem_hostIds.mpr hk)
  have hrest : ∑ i ∈ (hostIds numHosts).toFinset.erase k, ((s.setNode k n).node i).pc.work
      = ∑ i ∈ (hostIds numHosts).toFinset.erase k, (s.node i).pc.work := by
    refine Finset.sum_congr rfl fun i hi => ?_
    rw [Sys.setNode_node_of_ne s n (Finset.ne_of_mem_erase hi)]
  have hnew := Finset.add_sum_erase _ (fun i => ((s.setNode k n).node i).pc.work) hmem
  have hold := Finset.add_sum_erase _ (fun i => (s.node i).pc.work) hmem
  simp only [Sys.setNode_node_self] at hnew
  rw [Sys.work, Sys.work, Sys.setNode_flight]
  omega

end Work

/-! ### At rest -/

/-- The network is empty, and every node waits for a datagram. -/
structure Sys.AtRest (numHosts : ℤ) (s : Sys) : Prop where
  flight : s.flight = []
  nodes : ∀ k, 1 ≤ k → k ≤ numHosts → (s.node k).pc = .recv

/-- No node has exited. -/
def Sys.AllAlive (numHosts : ℤ) (s : Sys) : Prop :=
  ∀ k, 1 ≤ k → k ≤ numHosts → (s.node k).alive = true

/-- At rest nothing is outstanding. -/
lemma Sys.AtRest.outstanding_eq {numHosts : ℤ} {s : Sys} (h : s.AtRest numHosts) :
    s.outstanding numHosts = 0 := by
  rw [Sys.outstanding, h.flight]
  refine (zero_add _).trans (Finset.sum_eq_zero fun k hk => ?_)
  obtain ⟨hlow, hhigh⟩ := mem_hostIds.mp (List.mem_toFinset.mp hk)
  rw [Node.dispatch, Node.unanswered, h.nodes k hlow hhigh]

/-- A thread that has not ended can take a step. -/
lemma exists_threadStep (pcomm : Bytes) {th : ExeclThread} (h : th.pc ≠ .ended) :
    ∃ a th', Node.threadStep pcomm th a = some th' ∧ th'.pc.work < th.pc.work := by
  cases hth : th.pc with
  | start =>
      refine ⟨.begin, _, if_pos hth, ?_⟩
      show (if pcomm = Node.sleepCommand then ThreadPc.sleeping else ThreadPc.forking).work < 3
      split_ifs <;> decide
  | sleeping => exact ⟨.wake, _, if_pos hth, Nat.lt_succ_self 1⟩
  | forking => exact ⟨.fork false, _, if_pos hth, Nat.lt_succ_self 0⟩
  | ended => exact absurd hth h

/-- A step of the thread is a step of the node that runs it. -/
lemma exists_step_of_threadStep (k : ℤ) {n : Node} {j : NodeJob} {th th' : ExeclThread}
    {a : Node.Act} (hn : n.pc = .recorded j th) (h : Node.threadStep j.pcomm th a = some th') :
    ∃ n', n.step k a = some (n', []) ∧ n'.pc = .recorded j th' := by
  have hexec : n.executing = some (j, th) := by rw [Node.executing, hn]
  have hset : (n.setThread th').pc = .recorded j th' := by rw [Node.setThread, hn]
  cases a with
  | begin | wake | unwind => exact ⟨n.setThread th', by simp [Node.step, hexec, h], hset⟩
  | fork forkOk =>
      refine ⟨(n.setThread th').setProcs (if forkOk then j.job :: n.procs else n.procs), ?_, hset⟩
      simp [Node.step, hexec, h]
  | record | procExit | join | sendReturn | sendHost => cases h

/-- A node that does not wait for a datagram can take a step, and has less to do then. -/
lemma exists_nodeStep (k : ℤ) {n : Node} (halive : n.alive = true) (hpc : n.pc ≠ .recv) :
    ∃ a n' ps, n.step k a = some (n', ps) ∧ n'.alive = true ∧
      n'.pc.work + (ps.map Packet.work).sum < n.pc.work := by
  cases hn : n.pc with
  | recv => exact absurd hn hpc
  | exited j =>
      rw [Node.alive, hn] at halive
      cases halive
  | created j th => exact ⟨.record, _, [], by rw [Node.step, hn], rfl, Nat.lt_succ_self _⟩
  | joined j =>
      refine ⟨.sendReturn, _, _, by rw [Node.step, hn], rfl, ?_⟩
      exact Nat.lt_succ_self 3
  | returned j =>
      refine ⟨.sendHost, _, _, by rw [Node.step, hn], rfl, ?_⟩
      exact Nat.lt_succ_self 1
  | recorded j th =>
      by_cases hended : th.pc = .ended
      · refine ⟨.join, { n with pc := .joined j }, [], ?_, rfl, ?_⟩
        · simp only [Node.step, hn, if_pos hended]
        · show 4 + 0 < th.pc.work + 5
          omega
      · obtain ⟨a, th', hstep, hlt⟩ := exists_threadStep j.pcomm hended
        obtain ⟨n', hstep', hn'⟩ := exists_step_of_threadStep k hn hstep
        refine ⟨a, n', [], hstep', ?_, ?_⟩
        · rw [Node.alive, hn']
        · rw [hn']
          exact Nat.add_lt_add_right hlt 5

/-- **A step on the way to rest**: of a node, or of a loop that reads a packet; there is less
to do after it. -/
structure Settles (numHosts : ℤ) (s : Sys) (l : SysAct) (s' : Sys) : Prop where
  step : s.step numHosts lossless l = some s'
  handled : ∀ a, l.masterAct numHosts = some a →
    (∃ msg job now, a = .result msg job now ∧ msg.reported job ∈ s.outstanding numHosts) ∨
      ∃ msg job, a = .hostStatus msg job
  alive : s'.AllAlive numHosts
  work : s'.work numHosts < s.work numHosts

section Settling

variable {numHosts : ℤ} {s : Sys}

/-- A replaced node that is alive. -/
lemma allAlive_setNode (h : s.AllAlive numHosts) {k : ℤ} {n : Node} (hn : n.alive = true) :
    (s.setNode k n).AllAlive numHosts := by
  intro i hlow hhigh
  by_cases hi : i = k
  · rw [hi, Sys.setNode_node_self]
    exact hn
  · rw [Sys.setNode_node_of_ne _ _ hi]
    exact h i hlow hhigh

/-- A node takes a step. -/
lemma settles_node (h : s.AllAlive numHosts) {k : ℤ} (hk : 1 ≤ k ∧ k ≤ numHosts)
    (hpc : (s.node k).pc ≠ .recv) : ∃ a s', Settles numHosts s (.node k a) s' := by
  obtain ⟨a, n, ps, hstep, halive, hlt⟩ := exists_nodeStep k (h k hk.1 hk.2) hpc
  refine ⟨a, (s.setNode k n).send lossless ps, ?_, nofun, allAlive_setNode h halive, ?_⟩
  · rw [Sys.step, if_pos hk, hstep]
    rfl
  · have hset := work_setNode (s := s) hk n
    rw [work_send]
    omega

/-- A packet that a node reads while it waits for a datagram. -/
lemma settles_read (h : s.AllAlive numHosts) {p : Packet} (hp : p ∈ s.flight) {k : ℤ}
    (hk : 1 ≤ k ∧ k ≤ numHosts) (hpc : (s.node k).pc = .recv) {n : Node}
    (hstep : s.step numHosts lossless (.deliver p true 0) = some ((s.take p).setNode k n))
    (hnone : (SysAct.deliver p true 0).masterAct numHosts = none)
    (hn : n.alive = true) (hwork : n.pc.work < p.work) :
    ∃ l s', Settles numHosts s l s' := by
  refine ⟨.deliver p true 0, _, hstep, fun a ha => ?_, allAlive_setNode h hn, ?_⟩
  · rw [hnone] at ha
    cases ha
  · have hset := work_setNode (s := s.take p) hk n
    have htake := work_take numHosts hp
    have hzero : NodePc.recv.work = 0 := rfl
    rw [Sys.take_node, hpc, hzero] at hset
    omega

/-- A packet that a monitor of the master reads. -/
lemma settles_monitor (h : s.AllAlive numHosts) (m : Master) {p : Packet} (hp : p ∈ s.flight)
    (hstep : s.step numHosts lossless (.deliver p true 0) = some ((s.take p).setMaster m))
    (hhandled : ∀ a, (SysAct.deliver p true 0).masterAct numHosts = some a →
      (∃ msg job now, a = .result msg job now ∧ msg.reported job ∈ s.outstanding numHosts) ∨
        ∃ msg job, a = .hostStatus msg job) :
    ∃ l s', Settles numHosts s l s' := by
  refine ⟨.deliver p true 0, _, hstep, hhandled, h, ?_⟩
  have htake := work_take numHosts hp
  have hpos : 0 < p.work := by
    rw [Packet.work]
    split_ifs <;> omega
  show (s.take p).work numHosts < _
  omega

/-- Where the packets in flight are read. -/
lemma reader_submit {k : ℤ} (hk : 1 ≤ k ∧ k ≤ numHosts) (command : Bytes) (jobId : ℤ) (job : ℕ) :
    (serverSingleJobSubmit serverMachineId k command jobId job).reader numHosts = .job k := by
  have hresult : interJobPort ≠ jobReltPort := by decide
  have hhost : interJobPort ≠ hostStatPort := by decide
  simp [Packet.reader, hresult, hhost, hk]

lemma reader_cancel {k : ℤ} (hk : 1 ≤ k ∧ k ≤ numHosts) (jobId : ℤ) (job : ℕ) :
    (serverSingleJobCancel serverMachineId jobId k job).reader numHosts = .cancelLoop k := by
  have hresult : cancelJobPort ≠ jobReltPort := by decide
  have hhost : cancelJobPort ≠ hostStatPort := by decide
  have hinter : cancelJobPort ≠ interJobPort := by decide
  simp [Packet.reader, hresult, hhost, hinter, hk]

/-- A submit message is read by its node, which takes the job on. -/
lemma settles_submit (h : s.AllAlive numHosts) {k : ℤ} (hk : 1 ≤ k ∧ k ≤ numHosts)
    (hpc : (s.node k).pc = .recv) {command : Bytes} {jobId : ℤ} {job : ℕ}
    (hp : serverSingleJobSubmit serverMachineId k command jobId job ∈ s.flight) :
    ∃ l s', Settles numHosts s l s' := by
  obtain ⟨n, hn, halive, hwork⟩ : ∃ n, (s.node k).receive
      (serverSingleJobSubmit serverMachineId k command jobId job).msg job true = some n ∧
        n.alive = true ∧ n.pc.work = 9 := by
    rw [Node.receive, hpc]
    exact ⟨_, (if_pos rfl).trans (if_pos rfl), rfl, rfl⟩
  refine settles_read h hp hk hpc ?_ ?_ halive (hwork.trans_lt (Nat.lt_succ_self 9))
  · rw [Sys.step, if_pos hp, reader_submit hk]
    exact congrArg (Option.map _) hn
  · rw [SysAct.masterAct, reader_submit hk]

/-- A cancel message is read by its node, which finds no thread. -/
lemma settles_cancel (h : s.AllAlive numHosts) {k : ℤ} (hk : 1 ≤ k ∧ k ≤ numHosts)
    (hpc : (s.node k).pc = .recv) {jobId : ℤ} {job : ℕ}
    (hp : serverSingleJobCancel serverMachineId jobId k job ∈ s.flight) :
    ∃ l s', Settles numHosts s l s' := by
  have hn : (s.node k).cancel = some (s.node k) := by
    rw [Node.cancel, Node.alive, Node.executing, hpc]
    rfl
  refine settles_read h hp hk hpc ?_ ?_ (h k hk.1 hk.2) (hpc ▸ Nat.one_pos)
  · rw [Sys.step, if_pos hp, reader_cancel hk]
    exact congrArg (Option.map _) hn
  · rw [SysAct.masterAct, reader_cancel hk]

/-- A FINISHED report is read by `job_queue_result_1`. -/
lemma settles_jobReturn (h : s.AllAlive numHosts) (hhosts : numHosts < maxNumHosts) {k : ℤ}
    (hk : 1 ≤ k ∧ k ≤ numHosts) (htally : Tallied (s.ledger numHosts)) {j : NodeJob}
    (hp : Node.jobReturn k j ∈ s.flight) : ∃ l s', Settles numHosts s l s' := by
  have hout : (⟨j.job, k, j.jobId⟩ : Dispatch) ∈ s.outstanding numHosts :=
    Multiset.mem_add.mpr (.inl (Multiset.mem_coe.mpr (List.mem_filterMap.mpr ⟨_, hp, rfl⟩)))
  have hsrc : inTable maxNumHosts k := ⟨by omega, by omega⟩
  have hjob : inTable maxJobQueue j.jobId := by
    have hid : j.jobId = slotOf j.job := (htally.ids _ hout).2
    have hpos : (0 : ℤ) < maxJobQueue := by decide
    rw [hid, slotOf]
    exact ⟨Int.emod_nonneg _ hpos.ne', Int.emod_lt_of_pos _ hpos⟩
  obtain ⟨m, hm⟩ : ∃ m, s.master.result (Node.jobReturn k j).msg j.job 0 = some m := by
    obtain ⟨srv, hsrv⟩ :
        ∃ srv, jobQueueResult1 0 (Node.jobReturn k j).msg s.master.srv = some srv := by
      rw [jobQueueResult1]
      split_ifs with hm2 hin
      · simp only
        split_ifs <;> exact ⟨_, rfl⟩
      · exact absurd ⟨hsrc, hjob⟩ hin
      · exact ⟨_, rfl⟩
    rw [Master.result, hsrv]
    exact ⟨_, rfl⟩
  refine settles_monitor h m hp ?_ fun a ha => ?_
  · rw [Sys.step, if_pos hp]
    exact congrArg (Option.map _) hm
  · cases ha
    exact .inl ⟨_, _, _, rfl, hout⟩

/-- A host report is read by `epbs_host_status`. -/
lemma settles_hostReport (h : s.AllAlive numHosts) (hhosts : numHosts < maxNumHosts) {k : ℤ}
    (hk : 1 ≤ k ∧ k ≤ numHosts) {j : NodeJob} (hp : Node.hostReport k j ∈ s.flight) :
    ∃ l s', Settles numHosts s l s' := by
  have hin : inTable (maxNumHosts + 1) k := ⟨by omega, by push_cast; omega⟩
  obtain ⟨m, hm⟩ : ∃ m, s.master.hostStatus (Node.hostReport k j).msg j.job = some m := by
    rw [Master.hostStatus, epbsHostStatus]
    exact ⟨_, congrArg (Option.map _) (if_pos hin)⟩
  refine settles_monitor h m hp ?_ fun a ha => ?_
  · rw [Sys.step, if_pos hp]
    exact congrArg (Option.map _) hm
  · cases ha
    exact .inr ⟨_, _, rfl⟩

/-- **Something can settle** as long as the cluster is not at rest, if no node has exited. -/
lemma exists_settling (hhosts : numHosts < maxNumHosts) (hcarry : Carrying numHosts s)
    (htally : Tallied (s.ledger numHosts)) (h : s.AllAlive numHosts)
    (hnot : ¬ s.AtRest numHosts) : ∃ l s', Settles numHosts s l s' := by
  by_cases hnodes : ∀ k, 1 ≤ k → k ≤ numHosts → (s.node k).pc = .recv
  · obtain ⟨p, hp⟩ : ∃ p, p ∈ s.flight :=
      List.exists_mem_of_ne_nil _ fun hnil => hnot ⟨hnil, hnodes⟩
    -- every node reads datagrams, so any packet in flight can be delivered
    cases hcarry.flight p hp with
    | submit hk => exact settles_submit h hk (hnodes _ hk.1 hk.2) hp
    | cancel hk => exact settles_cancel h hk (hnodes _ hk.1 hk.2) hp
    | jobReturn hk => exact settles_jobReturn h hhosts hk htally hp
    | hostReport hk => exact settles_hostReport h hhosts hk hp
  · push Not at hnodes
    obtain ⟨k, hlow, hhigh, hpc⟩ := hnodes
    obtain ⟨a, s', hsettles⟩ := settles_node h ⟨hlow, hhigh⟩ hpc
    exact ⟨.node k a, s', hsettles⟩

end Settling

end Epbs
