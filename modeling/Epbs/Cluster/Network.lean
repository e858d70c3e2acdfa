/-
The cluster: the master, its compute nodes, and the packets between them.

* `Sys.step`: a thread of the master takes a step, a packet in flight is
  delivered to the loop that reads its port, or a node takes a step; packets are
  delivered in any order, each once;
* `clusterMachine`: the runs of the cluster over a network that keeps the
  packets `accepts` says it keeps, at the moment they are sent; `lossless` keeps
  them all, `listening` those for which a socket of their transport is open;
* `Packet.dispatch`, `Sys.outstanding`: a dispatch is outstanding while its
  submit message, its job or its report is under way.
-/
import Epbs.Machine.Guarded
import Epbs.Server.Master
import Epbs.Cluster.Node

namespace Epbs

/-! ### The state and the steps -/

/-- The cluster: the master, the nodes by their number, and the packets in flight, in any order. -/
structure Sys where
  master : Master
  node : ℤ → Node
  flight : List Packet

/-- A step of the cluster: a request the job monitor reads, a step of the pop
thread, the delivery of a packet, or a step of a node. -/
inductive SysAct where
  | submit (req : SubmitRequest) (now : ℤ)
  | cancel (jobId : ℤ)
  | pop (now : ℤ)
  | deliver (p : Packet) (createOk : Bool) (now : ℤ)
  | node (k : ℤ) (a : Node.Act)

/-- Where the packet is read: by a monitor of the master, by the job loop or the
cancel loop of a node, or nowhere. -/
inductive Reader where
  | result | hostStatus
  | job (k : ℤ)
  | cancelLoop (k : ℤ)
  | nobody
  deriving DecidableEq

/-- The loop that reads a port of a host. -/
def Packet.reader (numHosts : ℤ) (p : Packet) : Reader :=
  let k := p.dest.host
  if p.dest.port = jobReltPort ∧ k = serverMachineId then .result
  else if p.dest.port = hostStatPort ∧ k = serverMachineId then .hostStatus
  else if p.dest.port = interJobPort ∧ 1 ≤ k ∧ k ≤ numHosts then .job k
  else if p.dest.port = cancelJobPort ∧ 1 ≤ k ∧ k ≤ numHosts then .cancelLoop k
  else .nobody

/-- What the master handles in a step of the cluster, if it takes part. -/
def SysAct.masterAct (numHosts : ℤ) : SysAct → Option MasterAct
  | .submit req now => some (.submit req now)
  | .cancel jobId => some (.cancel jobId)
  | .pop now => some (.pop now)
  | .deliver p _ now =>
      match p.reader numHosts with
      | .result => some (.result p.msg p.job now)
      | .hostStatus => some (.hostStatus p.msg p.job)
      | _ => none
  | .node _ _ => none

/-- Which packets a network keeps, from the state in which they are sent. -/
abbrev Network := Sys → Packet → Bool

namespace Sys

/-- The cluster at its start. -/
def init (ips : ℤ → Bytes) : Sys := ⟨.init ips, fun _ => .init, []⟩

/-- The packet is taken from the network. -/
def take (s : Sys) (p : Packet) : Sys := { s with flight := s.flight.erase p }

/-- Packets are handed to the network. -/
def send (accepts : Network) (s : Sys) (ps : List Packet) : Sys :=
  { s with flight := s.flight ++ ps.filter (accepts s) }

/-- The master is replaced. -/
def setMaster (s : Sys) (m : Master) : Sys := { s with master := m }

/-- A node is replaced. -/
def setNode (s : Sys) (k : ℤ) (n : Node) : Sys :=
  { s with node := Function.update s.node k n }

section Fields

variable (accepts : Network) (s : Sys) (p : Packet) (ps : List Packet) (k : ℤ) (n : Node)
  (m : Master)

@[simp] lemma take_master : (s.take p).master = s.master := rfl
@[simp] lemma take_node : (s.take p).node = s.node := rfl
@[simp] lemma send_master : (s.send accepts ps).master = s.master := rfl
@[simp] lemma send_node : (s.send accepts ps).node = s.node := rfl
@[simp] lemma setMaster_master : (s.setMaster m).master = m := rfl
@[simp] lemma setMaster_node : (s.setMaster m).node = s.node := rfl
@[simp] lemma setMaster_flight : (s.setMaster m).flight = s.flight := rfl
@[simp] lemma setNode_master : (s.setNode k n).master = s.master := rfl
@[simp] lemma setNode_flight : (s.setNode k n).flight = s.flight := rfl
@[simp] lemma setNode_node_self : (s.setNode k n).node k = n := Function.update_self ..

variable {k} in
lemma setNode_node_of_ne {i : ℤ} (hi : i ≠ k) : (s.setNode k n).node i = s.node i :=
  Function.update_of_ne hi ..

end Fields

/-- A thread of the master takes a step. -/
def masterStep (numHosts : ℤ) (accepts : Network) (a : MasterAct) (s : Sys) : Option Sys :=
  (s.master.step numHosts a).map fun (m, ps) => (s.setMaster m).send accepts ps

/-- **A step of the cluster.** -/
def step (numHosts : ℤ) (accepts : Network) : SysAct → Sys → Option Sys
  | .submit req now, s => s.masterStep numHosts accepts (.submit req now)
  | .cancel jobId, s => s.masterStep numHosts accepts (.cancel jobId)
  | .pop now, s => s.masterStep numHosts accepts (.pop now)
  | .deliver p createOk now, s =>
      if p ∈ s.flight then
        match p.reader numHosts with
        | .result => (s.master.result p.msg p.job now).map (s.take p).setMaster
        | .hostStatus => (s.master.hostStatus p.msg p.job).map (s.take p).setMaster
        | .job k =>
            ((s.node k).receive p.msg p.job createOk).map fun n => (s.take p).setNode k n
        | .cancelLoop k => (s.node k).cancel.map fun n => (s.take p).setNode k n
        | .nobody => none
      else none
  | .node k a, s =>
      if 1 ≤ k ∧ k ≤ numHosts then
        ((s.node k).step k a).map fun (n, ps) => (s.setNode k n).send accepts ps
      else none

end Sys

/-- The runs of the cluster. -/
def clusterMachine (numHosts : ℤ) (accepts : Network) (ips : ℤ → Bytes) :
    Machine Sys SysAct where
  init := .init ips
  step := Sys.step numHosts accepts

/-- A guard on what the master handles, as a guard on the steps of the cluster. -/
def OnMaster (numHosts : ℤ) (G : Master → MasterAct → Prop) (s : Sys) (l : SysAct) : Prop :=
  ∀ a, l.masterAct numHosts = some a → G s.master a

section Tested

variable {numHosts : ℤ} {accepts : Network} {ips : ℤ → Bytes} (G : Master → MasterAct → Prop)
  [∀ m a, Decidable (G m a)] {ls : List SysAct}

/-- A step that passes the test meets the guard. -/
lemma onMaster_of_test {G : Master → MasterAct → Prop} [∀ m a, Decidable (G m a)] (s : Sys)
    (l : SysAct) (h : (l.masterAct numHosts).all (fun a => decide (G s.master a)) = true) :
    OnMaster numHosts G s l := by
  intro a ha
  rw [ha] at h
  exact of_decide_eq_true h

/-- A run whose guards are tested on the way. -/
lemma exists_reach_of_tested {p : Sys → Bool}
    (h : (((clusterMachine numHosts accepts ips).restrict fun s l =>
      (l.masterAct numHosts).all fun a => decide (G s.master a)).run ls (.init ips)).any p
        = true) :
    ∃ s, (clusterMachine numHosts accepts ips).Reach (OnMaster numHosts G) s ∧ p s = true :=
  Machine.exists_reach_of_restrict onMaster_of_test h

/-- The steps of a run whose guards are tested on the way meet them, and it ends where it
does. -/
lemma exists_guardedRun_of_tested {s : Sys} {p : Sys → Bool}
    (h : (((clusterMachine numHosts accepts ips).restrict fun s l =>
      (l.masterAct numHosts).all fun a => decide (G s.master a)).run ls s).any p = true) :
    ∃ s', (clusterMachine numHosts accepts ips).GuardedRun (OnMaster numHosts G) ls s ∧
      (clusterMachine numHosts accepts ips).run ls s = some s' ∧ p s' = true := by
  obtain ⟨s', hs', hp⟩ := (Option.any_eq_true p _).mp h
  obtain ⟨hguard, hrun⟩ := Machine.guardedRun_of_restrict onMaster_of_test hs'
  exact ⟨s', hguard, hrun, hp⟩

end Tested

/-- The network that keeps every packet until it is delivered. -/
def lossless : Network := fun _ _ => true

/-- The sockets that are open.  A node's job loop has one while it is in
`udp_recv`, its cancel loop always while the process runs; the four service
loops of the master listen on TCP. -/
def listening (numHosts : ℤ) : Network := fun s p =>
  let k := p.dest.host
  match p.dest.transport with
  | .udp =>
      decide (1 ≤ k ∧ k ≤ numHosts) &&
        (decide (p.dest.port = interJobPort ∧ (s.node k).pc = .recv) ||
          decide (p.dest.port = cancelJobPort ∧ (s.node k).alive = true))
  | .tcp =>
      decide (k = serverMachineId) &&
        decide (p.dest.port = jobReltPort ∨ p.dest.port = hostStatPort)

/-! ### What the steps can do -/

/-- A request of a client or a step of the pop thread. -/
structure MasterAct.IsRequest (a : MasterAct) : Prop where
  notResult : ∀ msg job now, a ≠ .result msg job now
  notHostStatus : ∀ msg job, a ≠ .hostStatus msg job

/-- The steps of the cluster, one for each party that moves: the master at a request or a report,
a node at a message, and a node by itself. -/
inductive SysStep (numHosts : ℤ) (accepts : Network) (s : Sys) : SysAct → Sys → Prop
  | request {l : SysAct} {a : MasterAct} {m : Master} {ps : List Packet}
      (hl : l.masterAct numHosts = some a) (hreq : a.IsRequest)
      (hm : s.master.step numHosts a = some (m, ps)) :
      SysStep numHosts accepts s l ((s.setMaster m).send accepts ps)
  | result {p : Packet} {createOk : Bool} {now : ℤ} {m : Master} (hp : p ∈ s.flight)
      (hport : p.dest.port = jobReltPort)
      (hl : (SysAct.deliver p createOk now).masterAct numHosts
        = some (.result p.msg p.job now))
      (hm : s.master.result p.msg p.job now = some m) :
      SysStep numHosts accepts s (.deliver p createOk now) ((s.take p).setMaster m)
  | hostStatus {p : Packet} {createOk : Bool} {now : ℤ} {m : Master} (hp : p ∈ s.flight)
      (hport : p.dest.port = hostStatPort)
      (hl : (SysAct.deliver p createOk now).masterAct numHosts
        = some (.hostStatus p.msg p.job))
      (hm : s.master.hostStatus p.msg p.job = some m) :
      SysStep numHosts accepts s (.deliver p createOk now) ((s.take p).setMaster m)
  | receive {p : Packet} {k : ℤ} {createOk : Bool} {now : ℤ} {n : Node} (hp : p ∈ s.flight)
      (hport : p.dest.port = interJobPort) (hhost : p.dest.host = k)
      (hk : 1 ≤ k ∧ k ≤ numHosts) (hn : (s.node k).receive p.msg p.job createOk = some n) :
      SysStep numHosts accepts s (.deliver p createOk now) ((s.take p).setNode k n)
  | cancelNode {p : Packet} {k : ℤ} {createOk : Bool} {now : ℤ} {n : Node} (hp : p ∈ s.flight)
      (hport : p.dest.port = cancelJobPort) (hhost : p.dest.host = k)
      (hk : 1 ≤ k ∧ k ≤ numHosts) (hn : (s.node k).cancel = some n) :
      SysStep numHosts accepts s (.deliver p createOk now) ((s.take p).setNode k n)
  | node {k : ℤ} {a : Node.Act} {n : Node} {ps : List Packet} (hk : 1 ≤ k ∧ k ≤ numHosts)
      (hn : (s.node k).step k a = some (n, ps)) :
      SysStep numHosts accepts s (.node k a) ((s.setNode k n).send accepts ps)

/-- Where the packets of each reader come in. -/
lemma reader_cases (numHosts : ℤ) (p : Packet) :
    match p.reader numHosts with
    | .result => p.dest.port = jobReltPort
    | .hostStatus => p.dest.port = hostStatPort
    | .job k => p.dest.port = interJobPort ∧ p.dest.host = k ∧ 1 ≤ k ∧ k ≤ numHosts
    | .cancelLoop k => p.dest.port = cancelJobPort ∧ p.dest.host = k ∧ 1 ≤ k ∧ k ≤ numHosts
    | .nobody => True := by
  rw [Packet.reader]
  split_ifs with h1 h2 h3 h4
  · exact h1.1
  · exact h2.1
  · exact ⟨h3.1, rfl, h3.2⟩
  · exact ⟨h4.1, rfl, h4.2⟩
  · trivial

/-- Every step of the cluster is one of these. -/
lemma sysStep_spec {numHosts : ℤ} {accepts : Network} {l : SysAct} {s s' : Sys}
    (h : s.step numHosts accepts l = some s') : SysStep numHosts accepts s l s' := by
  have hmaster : ∀ {a}, s.masterStep numHosts accepts a = some s' →
      ∃ m ps, s.master.step numHosts a = some (m, ps) ∧
        s' = (s.setMaster m).send accepts ps := by
    intro a ha
    obtain ⟨⟨m, ps⟩, hm, rfl⟩ := Option.map_eq_some_iff.mp ha
    exact ⟨m, ps, hm, rfl⟩
  cases l with
  | submit req now =>
      obtain ⟨m, ps, hm, rfl⟩ := hmaster h
      exact .request rfl ⟨nofun, nofun⟩ hm
  | cancel jobId =>
      obtain ⟨m, ps, hm, rfl⟩ := hmaster h
      exact .request rfl ⟨nofun, nofun⟩ hm
  | pop now =>
      obtain ⟨m, ps, hm, rfl⟩ := hmaster h
      exact .request rfl ⟨nofun, nofun⟩ hm
  | deliver p createOk now =>
      -- the reader of a message is the thread that listens to its port
      have hread := reader_cases numHosts p
      simp only [Sys.step] at h
      split_ifs at h with hp
      cases hr : p.reader numHosts with
      | result =>
          simp only [hr] at h hread
          obtain ⟨m, hm, rfl⟩ := Option.map_eq_some_iff.mp h
          exact .result hp hread (by simp [SysAct.masterAct, hr]) hm
      | hostStatus =>
          simp only [hr] at h hread
          obtain ⟨m, hm, rfl⟩ := Option.map_eq_some_iff.mp h
          exact .hostStatus hp hread (by simp [SysAct.masterAct, hr]) hm
      | job k =>
          simp only [hr] at h hread
          obtain ⟨n, hn, rfl⟩ := Option.map_eq_some_iff.mp h
          exact .receive hp hread.1 hread.2.1 hread.2.2 hn
      | cancelLoop k =>
          simp only [hr] at h hread
          obtain ⟨n, hn, rfl⟩ := Option.map_eq_some_iff.mp h
          exact .cancelNode hp hread.1 hread.2.1 hread.2.2 hn
      | nobody =>
          simp only [hr, reduceCtorEq] at h
  | node k a =>
      simp only [Sys.step] at h
      split_ifs at h with hk
      obtain ⟨⟨n, ps⟩, hn, rfl⟩ := Option.map_eq_some_iff.mp h
      exact .node hk hn

/-- What a step of the cluster does to a node. -/
inductive NodeChange (k : ℤ) (n : Node) (l : SysAct) : Node → Prop
  | same : NodeChange k n l n
  | receive {msg : Msg} {job : ℕ} {createOk : Bool} {n' : Node}
      (h : n.receive msg job createOk = some n') : NodeChange k n l n'
  | cancel {n' : Node} (h : n.cancel = some n') : NodeChange k n l n'
  | step {a : Node.Act} {n' : Node} {ps : List Packet} (hl : l = .node k a)
      (h : Node.NodeStep k n a n' ps) : NodeChange k n l n'

/-- Every node takes part in a step of the cluster in one of these ways. -/
lemma nodeChange_of_sysStep {numHosts : ℤ} {accepts : Network} {s s' : Sys} {l : SysAct}
    (h : SysStep numHosts accepts s l s') (i : ℤ) :
    NodeChange i (s.node i) l (s'.node i) := by
  cases h with
  | request hl hreq hm => exact .same
  | result hp hport hl hm => exact .same
  | hostStatus hp hport hl hm => exact .same
  | @receive p k createOk now n hp hport hhost hk hn =>
      by_cases hi : i = k
      · subst hi
        rw [Sys.setNode_node_self]
        exact .receive hn
      · rw [Sys.setNode_node_of_ne _ _ hi]
        exact .same
  | @cancelNode p k createOk now n hp hport hhost hk hn =>
      by_cases hi : i = k
      · subst hi
        rw [Sys.setNode_node_self]
        exact .cancel hn
      · rw [Sys.setNode_node_of_ne _ _ hi]
        exact .same
  | @node k a n ps hk hn =>
      by_cases hi : i = k
      · subst hi
        rw [Sys.send_node, Sys.setNode_node_self]
        exact .step rfl (Node.nodeStep_spec hn)
      · rw [Sys.send_node, Sys.setNode_node_of_ne _ _ hi]
        exact .same

/-! ### Dispatches under way -/

/-- A dispatch: the job given to a node under an id. -/
structure Dispatch where
  job : ℕ
  node : ℤ
  jobId : ℤ
  deriving DecidableEq

/-- The dispatch a packet carries: a submit message or a FINISHED report. -/
def Packet.dispatch (p : Packet) : Option Dispatch :=
  if p.dest.port = interJobPort ∧ p.msg.type = msgTypeJobSubmit then
    some ⟨p.job, p.dest.host, p.msg.m1⟩
  else if p.dest.port = jobReltPort ∧ p.msg.m2 = JobStat.finished.code then
    some ⟨p.job, p.msg.src, p.msg.m1⟩
  else none

/-- The dispatch a node works on. -/
def Node.dispatch (k : ℤ) (n : Node) : Multiset Dispatch :=
  match n.unanswered with
  | some j => {⟨j.job, k, j.jobId⟩}
  | none => 0

/-- The dispatches whose report was not handled yet: submit messages in flight,
jobs on the nodes, reports in flight. -/
def Sys.outstanding (numHosts : ℤ) (s : Sys) : Multiset Dispatch :=
  (s.flight.filterMap Packet.dispatch : Multiset Dispatch) +
    ∑ k ∈ (hostIds numHosts).toFinset, (s.node k).dispatch k

end Epbs
