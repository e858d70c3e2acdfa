/-
The reports of the nodes over the sockets that are there.

* `ReportsApplied`: if every node a job was sent to has sent its two reports, the
  master has handled them; `ReportsArrive`: so it is at the end of every run;
* `Unheard`: over the network of the open sockets no report is ever in flight: the
  nodes send datagrams and the master listens on TCP;
* `reports_applied_iff`: the reports are applied only where none was sent;
* `reports_lost`: a run that ends with both reports sent and none handled.
-/
import Epbs.Cluster.Network

namespace Epbs

/-! ### Applied reports -/

/-- The master sent the job to the node. -/
def SentTo (s : Sys) (t : ℕ) (k : ℤ) : Prop := .assigned t k ∈ s.master.log

/-- The node sent its JOB_RETURN and its host report for the job. -/
def Reported (s : Sys) (t : ℕ) (k : ℤ) : Prop :=
  t ∈ (s.node k).returnSent ∧ t ∈ (s.node k).hostSent

/-- The master handled both reports: `pcstat`, `jobnodes` and `hostq` know. -/
def Applied (s : Sys) (t : ℕ) (k : ℤ) : Prop :=
  .handled t k ∈ s.master.log ∧ .hostHandled t k ∈ s.master.log

/-- **End-to-end completion** of a job: if the nodes it was sent to reported, their
reports were applied. -/
def ReportsApplied (s : Sys) (t : ℕ) : Prop :=
  (∀ k, SentTo s t k → Reported s t k) → ∀ k, SentTo s t k → Applied s t k

/-- Nothing is in flight and no node can take a step. -/
structure Quiescent (numHosts : ℤ) (s : Sys) : Prop where
  flight : s.flight = []
  nodes : ∀ k a, 1 ≤ k → k ≤ numHosts → (s.node k).step k a = none

/-- Reports are applied at the end of every run over the open sockets. -/
def ReportsArrive (numHosts : ℤ) (ips : ℤ → Bytes) : Prop :=
  ∀ s, (clusterMachine numHosts (listening numHosts) ips).Reach Machine.always s →
    Quiescent numHosts s → ∀ t, ReportsApplied s t

/-! ### Datagrams to a TCP port -/

/-- No report is in flight, and none was handled: the ports of the two report loops are read over
TCP, and the nodes send datagrams to them. -/
structure Unheard (s : Sys) : Prop where
  flight : ∀ p ∈ s.flight, p.dest.port ≠ jobReltPort ∧ p.dest.port ≠ hostStatPort
  log : ∀ t k, Event.handled t k ∉ s.master.log ∧ Event.hostHandled t k ∉ s.master.log

/-- A datagram that a socket receives goes to a loop of a node. -/
lemma port_of_listening {numHosts : ℤ} {s : Sys} {p : Packet}
    (hudp : p.dest.transport = .udp) (h : listening numHosts s p = true) :
    p.dest.port ≠ jobReltPort ∧ p.dest.port ≠ hostStatPort := by
  simp only [listening, hudp, Bool.and_eq_true, Bool.or_eq_true, decide_eq_true_eq] at h
  rcases h.2 with ⟨hport, _⟩ | ⟨hport, _⟩
  all_goals
    rw [hport]
    decide

/-- The master sends datagrams. -/
lemma udp_masterStep {numHosts : ℤ} {m m' : Master} {a : MasterAct} {ps : List Packet}
    (h : MasterStep numHosts m a m' ps) : ∀ p ∈ ps, p.dest.transport = .udp := by
  intro p hp
  cases h with
  | cancel jobId hhosts =>
      obtain ⟨k, _, rfl⟩ := List.mem_map.mp hp
      rfl
  | pop now hpop =>
      cases hpop with
      | assign hpc hi hk hin hfree =>
          obtain rfl := List.mem_singleton.mp hp
          rfl
      | _ => cases hp
  | _ => cases hp

/-- The nodes send datagrams. -/
lemma udp_nodeStep {k : ℤ} {n n' : Node} {a : Node.Act} {ps : List Packet}
    (h : Node.NodeStep k n a n' ps) : ∀ p ∈ ps, p.dest.transport = .udp := by
  intro p hp
  cases h with
  | sendReturn hpc =>
      obtain rfl := List.mem_singleton.mp hp
      rfl
  | sendHost hpc =>
      obtain rfl := List.mem_singleton.mp hp
      rfl
  | _ => cases hp

/-- Only the two report monitors handle reports. -/
lemma log_of_isRequest {numHosts : ℤ} {m m' : Master} {a : MasterAct} {ps : List Packet}
    (ha : a.IsRequest) (h : MasterStep numHosts m a m' ps) (t : ℕ) (k : ℤ) :
    (.handled t k ∈ m'.log → .handled t k ∈ m.log) ∧
      (.hostHandled t k ∈ m'.log → .hostHandled t k ∈ m.log) := by
  cases h with
  | submit req now pcomm username => exact ⟨id, id⟩
  | cancel jobId hhosts => simp
  | pop now hpop => cases hpop <;> simp
  | other msg job now _ => exact absurd rfl (ha.notResult msg job now)
  | report msg job now _ _ _ _ => exact absurd rfl (ha.notResult msg job now)
  | lastReport msg job now _ _ _ _ => exact absurd rfl (ha.notResult msg job now)
  | hostStatus msg job => exact absurd rfl (ha.notHostStatus msg job)

namespace Unheard

variable {numHosts : ℤ} {s s' : Sys}

/-- Datagrams sent while the master listens on TCP are no reports in flight. -/
lemma send (h : Unheard s) {ps : List Packet} (hudp : ∀ p ∈ ps, p.dest.transport = .udp) :
    Unheard (s.send (listening numHosts) ps) := by
  refine ⟨fun p hp => ?_, h.log⟩
  rcases List.mem_append.mp hp with hold | hnew
  · exact h.flight p hold
  · obtain ⟨hmem, hlisten⟩ := List.mem_filter.mp hnew
    exact port_of_listening (hudp p hmem) hlisten

/-- **One step of the cluster** over the open sockets handles no report. -/
lemma step (h : Unheard s) {l : SysAct} (hstep : SysStep numHosts (listening numHosts) s l s') :
    Unheard s' := by
  have htake : ∀ p q, q ∈ (s.take p).flight → q ∈ s.flight := fun p q => List.mem_of_mem_erase
  cases hstep with
  | @request l a m ps hl hreq hm =>
      have hm := masterStep_spec hm
      refine send (s := s.setMaster m) ⟨h.flight, fun t k => ?_⟩ (udp_masterStep hm)
      obtain ⟨hlog, hhost⟩ := log_of_isRequest hreq hm t k
      exact ⟨fun hc => (h.log t k).1 (hlog hc), fun hc => (h.log t k).2 (hhost hc)⟩
  | result hp hport hl hm => exact absurd hport (h.flight _ hp).1
  | hostStatus hp hport hl hm => exact absurd hport (h.flight _ hp).2
  | receive hp hport hhost hk hn => exact ⟨fun q hq => h.flight q (htake _ q hq), h.log⟩
  | cancelNode hp hport hhost hk hn => exact ⟨fun q hq => h.flight q (htake _ q hq), h.log⟩
  | @node k a n ps hk hn =>
      exact send (s := s.setNode k n) ⟨h.flight, h.log⟩ (udp_nodeStep (Node.nodeStep_spec hn))

end Unheard

/-! ### What arrives -/

/-- No report is handled in any run over the open sockets. -/
lemma unheard_of_reach {numHosts : ℤ} {ips : ℤ → Bytes} {s : Sys}
    (h : (clusterMachine numHosts (listening numHosts) ips).Reach Machine.always s) :
    Unheard s := by
  have hinit : Unheard (.init ips) :=
    ⟨fun p hp => absurd hp List.not_mem_nil, fun _ _ => ⟨List.not_mem_nil, List.not_mem_nil⟩⟩
  exact h.invariant (I := Unheard) hinit fun _ _ _ _ hI _ hs => hI.step (sysStep_spec hs)

/-- **The reports of a job are applied only where there is nothing to apply**: it
was sent to no node, or one of the nodes it was sent to has not reported. -/
theorem reports_applied_iff {numHosts : ℤ} {ips : ℤ → Bytes} {s : Sys}
    (h : (clusterMachine numHosts (listening numHosts) ips).Reach Machine.always s) (t : ℕ) :
    ReportsApplied s t ↔ (∀ k, ¬ SentTo s t k) ∨ ∃ k, SentTo s t k ∧ ¬ Reported s t k := by
  have hunheard := (unheard_of_reach h).log
  constructor
  · intro happly
    by_cases hall : ∀ k, SentTo s t k → Reported s t k
    · exact Or.inl fun k hk => (hunheard t k).1 (happly hall k hk).1
    · push Not at hall
      exact Or.inr hall
  · rintro (hnone | ⟨k, hk, hnot⟩) hall
    · exact fun k hk => absurd hk (hnone k)
    · exact absurd (hall k hk) hnot

/-- A job for one node is submitted, sent to node 1, run and reported. -/
def reportOne : List SysAct :=
  [.submit ⟨1, [97], 2, 1, [117], 2⟩ 0, .pop 0, .pop 0, .pop 0, .pop 0, .pop 0, .pop 0,
    .deliver (serverSingleJobSubmit serverMachineId 1 [97] 0 0) true 0,
    .node 1 .record, .node 1 .begin, .node 1 (.fork true), .node 1 (.procExit 0),
    .node 1 .join, .node 1 .sendReturn, .node 1 .sendHost]

/-- A node that waits for a datagram and runs no process takes no step. -/
lemma step_eq_none_of_recv {n : Node} (hpc : n.pc = .recv) (hprocs : n.procs = []) (k : ℤ)
    (a : Node.Act) : n.step k a = none := by
  cases a <;> simp [Node.step, Node.executing, hpc, hprocs]

/-- That run ends with nothing in flight. -/
lemma exists_reported : ∃ s, (clusterMachine 1 (listening 1) fun _ => []).Reach Machine.always s ∧
    Quiescent 1 s ∧ SentTo s 0 1 ∧ (∀ k, SentTo s 0 k → Reported s 0 k) := by
  have hrun : ((clusterMachine 1 (listening 1) fun _ => []).run reportOne
      (.init fun _ => [])).any (fun s =>
        decide (s.flight = []) && decide ((s.node 1).pc = .recv) &&
          decide ((s.node 1).procs = []) && decide ((s.node 1).returnSent = [0]) &&
          decide ((s.node 1).hostSent = [0]) && decide (s.master.log = [.assigned 0 1]))
            = true := by decide +kernel
  obtain ⟨s, hs, hp⟩ := Machine.exists_reach_of_run hrun
  simp only [Bool.and_eq_true, decide_eq_true_eq] at hp
  obtain ⟨⟨⟨⟨⟨hflight, hpc⟩, hprocs⟩, hreturn⟩, hhost⟩, hlog⟩ := hp
  refine ⟨s, hs, ⟨hflight, fun k a h1 h2 => ?_⟩, ?_, fun k hk => ?_⟩
  · obtain rfl : k = 1 := le_antisymm h2 h1
    exact step_eq_none_of_recv hpc hprocs 1 a
  · rw [SentTo, hlog]
    exact List.mem_singleton_self _
  · rw [SentTo, hlog, List.mem_singleton] at hk
    cases hk
    rw [Reported, hreturn, hhost]
    exact ⟨List.mem_singleton_self _, List.mem_singleton_self _⟩

/-- At the end of that run the reports are not applied. -/
theorem reports_applied_iff_reported : ∃ s,
    (clusterMachine 1 (listening 1) fun _ => []).Reach Machine.always s ∧ Quiescent 1 s ∧
      ¬ ReportsApplied s 0 := by
  obtain ⟨s, hs, hquiet, hsent, hall⟩ := exists_reported
  refine ⟨s, hs, hquiet, fun happly => ?_⟩
  rcases (reports_applied_iff hs 0).mp happly with hnone | ⟨k, hk, hnot⟩
  · exact hnone 1 hsent
  · exact hnot (hall k hk)

/-- **Reports are lost**: the run ends quiescent, node 1 sent both its reports, and
neither was handled. -/
theorem reports_lost : ¬ ReportsArrive 1 fun _ => [] := by
  intro harrive
  obtain ⟨s, hs, hquiet, hsent, hall⟩ := exists_reported
  exact ((unheard_of_reach hs).log 0 1).1 (harrive s hs hquiet 0 hall 1 hsent).1

end Epbs
