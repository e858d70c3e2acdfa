/-
From every state the cluster can get done with its jobs.

* `DrainGuard`: the runs in which no defect of the protocol has struck: every job that comes
  can be copied and finds room and a free id, the waiting loop is left only with enough FREE
  nodes, and no report of a job is handled while the pop thread holds it;
* `Orderly`: what the tables of the master keep along these runs, next to what was shown of
  the jobs and the nodes;
* `Sys.rank`, `Closer`: the jobs that wait, the rounds of the pop thread, the work under way
  and the steps of the scan, in this order;
* `exists_closer`: while something is left to do some step brings the cluster closer to its
  end, without a request of a client;
* `cluster_drains`: so every job that was submitted can still be FINISHED.
-/
import Epbs.Cluster.Accounts
import Epbs.Cluster.Progress
import Epbs.Cluster.Traffic
import Epbs.Wire.JobHistory

namespace Epbs

/-! ### The guard -/

/-- The strings of a SUBMIT fit their fields, and the pop thread can copy the command
that it stores. -/
def CommandFits : MasterAct → Prop
  | .submit req _ => req.CopiesFit ∧
      ((sprintf 256 req.commStr req.commStrLen).all fun pcomm =>
        (sprintf 32 pcomm pcomm.length).isSome) = true
  | _ => True

instance : (a : MasterAct) → Decidable (CommandFits a)
  | .submit _ _ => inferInstanceAs (Decidable (_ ∧ _))
  | .cancel _ | .pop _ | .result _ _ _ | .hostStatus _ _ => isTrue trivial

/-- The guard of the runs in which the cluster can get done. -/
def DrainGuard (numHosts : ℤ) (m : Master) (a : MasterAct) : Prop :=
  CompletionGuard numHosts m a ∧ SupplyGuard numHosts m a ∧ CommandFits a

instance (numHosts : ℤ) (m : Master) (a : MasterAct) : Decidable (DrainGuard numHosts m a) :=
  inferInstanceAs (Decidable (_ ∧ _))

/-- A request of a client. -/
def SysAct.fromClient : SysAct → Bool
  | .submit _ _ | .cancel _ => true
  | .pop _ | .deliver _ _ _ | .node _ _ => false

/-! ### What the tables keep -/

/-- Once the pop thread runs the nodes are FREE or BUSY. -/
def TwoStates (m : Master) : Prop :=
  m.pop ≠ .start → ∀ k, inTable maxNumHosts k →
    m.srv.pcstat k = .free ∨ m.srv.pcstat k = .busy

lemma twoStates_init (ips : ℤ → Bytes) : TwoStates (.init ips) := fun hpc => absurd rfl hpc

/-- The queue is in order, the commands that wait can be copied, and once the pop thread runs
the nodes are FREE or BUSY. -/
structure Orderly (numHosts : ℤ) (m : Master) : Prop where
  rounds : RoundsSupplied numHosts m
  scanning : Scanning m
  commands : ∀ t, m.popped ≤ t → t < m.accepted →
    (sprintf 32 (m.srv.jobq (slotOf t)).pcomm (m.srv.jobq (slotOf t)).pcomm.length).isSome = true
  states : TwoStates m

lemma orderly_init (numHosts : ℤ) (ips : ℤ → Bytes) : Orderly numHosts (.init ips) where
  rounds := ⟨takenInOrder_init ips, nofun⟩
  scanning := ⟨nofun⟩
  commands t _ ht := absurd ht (Nat.not_lt_zero t)
  states := twoStates_init ips

section Tables

variable {numHosts : ℤ} {m m' : Master} {a : MasterAct} {ps : List Packet}

/-- The pop thread never gives a job back. -/
lemma popped_masterStep (h : MasterStep numHosts m a m' ps) : m.popped ≤ m'.popped := by
  cases h with
  | pop now hpop =>
      cases hpop with
      | take | skip => exact Nat.le_succ _
      | _ => exact le_rfl
  | _ => exact le_rfl

/-- The commands that wait can still be copied. Only a SUBMIT writes a command, and with room in
the queue it does not write over one that waits. -/
lemma commands_masterStep (h : Orderly numHosts m) (hg : CommandFits a)
    (hstep : m.step numHosts a = some (m', ps)) :
    ∀ t, m'.popped ≤ t → t < m'.accepted →
      (sprintf 32 (m'.srv.jobq (slotOf t)).pcomm
        (m'.srv.jobq (slotOf t)).pcomm.length).isSome = true := by
  have hm := masterStep_spec hstep
  have hpopped := popped_masterStep hm
  intro t hlow hhigh
  by_cases ha : ∃ req now, a = .submit req now
  · obtain ⟨req, now, rfl⟩ := ha
    obtain ⟨_, hsub, heq⟩ := Option.map_eq_some_iff.mp hstep
    obtain ⟨⟨srv, reply⟩, hjob, rfl⟩ := Option.map_eq_some_iff.mp hsub
    obtain ⟨pcomm, username, hcopy, rfl, rfl⟩ := jobMonitorSubmit_cases hjob
    cases heq
    have hnum := h.rounds.inOrder.numbered
    have hroom := h.rounds.inOrder.room
    simp only [Server.advanceHead_jobq, Server.writeSlot_jobq]
    rw [hnum.head]
    by_cases ht : t = m.accepted
    · rw [ht, Function.update_self]
      rw [CommandFits, hcopy, Option.all_some] at hg
      exact hg.2
    · have hlt : t < m.accepted := lt_of_le_of_ne (Nat.le_of_lt_succ hhigh) ht
      have hslot : slotOf t ≠ slotOf m.accepted := by
        rw [Ne, slotOf_eq_iff]
        rw [maxJobQueue] at *
        omega
      rw [Function.update_of_ne hslot]
      exact h.commands t hlow hlt
  · have hsubmit : ∀ req now, a ≠ .submit req now := fun req now heq => ha ⟨req, now, heq⟩
    obtain ⟨haccepted, -⟩ := numReqNodes_masterStep hm hsubmit
    rcases slot_masterStep hm (slotOf t) with ⟨hsame, -⟩ | ⟨-, hcontra⟩
    · have hcommand : (m'.srv.jobq (slotOf t)).pcomm = (m.srv.jobq (slotOf t)).pcomm :=
        congrArg (QueuedJob.pcomm ∘ Prod.fst) hsame
      rw [hcommand]
      exact h.commands t (hpopped.trans hlow) (haccepted ▸ hhigh)
    · omega

/-- Nodes are released and taken, and nothing else. -/
lemma TwoStates.step (h : TwoStates m) (hstep : MasterStep numHosts m a m' ps) :
    TwoStates m' := by
  have hupdate : ∀ i st, st = .free ∨ st = .busy → m.pop ≠ .start → ∀ k,
      inTable maxNumHosts k → Function.update m.srv.pcstat i st k = .free ∨
        Function.update m.srv.pcstat i st k = .busy := by
    intro i st hst hpop k hk
    rw [Function.update_apply]
    split_ifs
    · exact hst
    · exact h hpop k hk
  intro hpc k hk
  cases hstep with
  | pop now hpop =>
      cases hpop with
      | init => exact .inl (if_pos hk)
      | empty => exact h hpc k hk
      | take hold htake | skip hold htake =>
          obtain ⟨_, _, _, _, rfl⟩ := jobQueueTake_some htake
          exact h (by rw [hold]; simp) k hk
      | assign hold => exact hupdate _ _ (.inr rfl) (by rw [hold]; simp) k hk
      | scan hold | again hold | enough hold | next hold | giveUp hold | finish hold =>
          exact h (by rw [hold]; simp) k hk
  | report => exact hupdate _ _ (.inl rfl) hpc k hk
  | lastReport => exact hupdate _ _ (.inl rfl) hpc k hk
  | _ => exact h hpc k hk

/-- **One guarded step of the master** keeps its tables in order. -/
lemma Orderly.step (h : Orderly numHosts m) (hg : DrainGuard numHosts m a)
    (hstep : m.step numHosts a = some (m', ps)) : Orderly numHosts m' where
  rounds := h.rounds.step hg.2.1 (masterStep_spec hstep)
  scanning := h.scanning.step (masterStep_spec hstep)
  commands := commands_masterStep h hg.2.2 hstep
  states := h.states.step (masterStep_spec hstep)

end Tables

/-- What is known of a state of the guarded runs. -/
structure Drivable (numHosts : ℤ) (s : Sys) : Prop where
  orderly : Orderly numHosts s.master
  exactly : Exactly numHosts (s.ledger numHosts)
  exclusive : Exclusive (s.ledger numHosts)
  carrying : Carrying numHosts s

lemma drivable_of_reach {numHosts : ℤ} {ips : ℤ → Bytes} {s : Sys}
    (h : (clusterMachine numHosts lossless ips).Reach
      (OnMaster numHosts (DrainGuard numHosts)) s) : Drivable numHosts s where
  orderly := by
    refine h.invariant (I := fun s => Orderly numHosts s.master) (orderly_init numHosts ips) ?_
    intro s l s' _ hI hg hs
    rcases master_sysStep (sysStep_spec hs) with hsame | ⟨a, ps, ha, hm⟩
    · rwa [hsame]
    · exact hI.step (hg a ha) hm
  exactly := exactly_of_reach (fun _ _ hg => hg.1) h
  exclusive := exclusive_of_reach (ledger_of_cluster h)
  carrying := carrying_of_reach h

/-! ### How far it is to the end -/

/-- The steps of the dispatch loops that lie ahead of the pop thread, and one for the way
there. -/
def PopPc.pending (numHosts : ℤ) : PopPc → ℕ
  | .idle => 0
  | .start => 1
  | .wait j _ _ _ => dispatchSteps numHosts j.numReqNodes + 1
  | .dispatch j t i k => (PopPc.dispatch j t i k).left numHosts fun _ => .free

/-- The jobs that wait, the dispatch loops, the work under way, the scan. -/
def Sys.rank (numHosts : ℤ) (s : Sys) : ℕ × ℕ × ℕ × ℕ :=
  (s.master.accepted - s.master.popped, s.master.pop.pending numHosts, s.work numHosts,
    s.master.pop.left numHosts s.master.srv.pcstat)

/-- A state is closer to the end of the work than another. -/
def Closer (numHosts : ℤ) (s' s : Sys) : Prop :=
  Prod.Lex (· < ·) (Prod.Lex (· < ·) (Prod.Lex (· < ·) (· < ·)))
    (s'.rank numHosts) (s.rank numHosts)

lemma wellFounded_closer (numHosts : ℤ) : WellFounded (Closer numHosts) :=
  InvImage.wf _ (WellFounded.prod_lex wellFounded_lt
    (WellFounded.prod_lex wellFounded_lt (WellFounded.prod_lex wellFounded_lt wellFounded_lt)))

/-- All jobs are taken, the pop thread is at its loop, and nothing is under way. -/
structure Done (numHosts : ℤ) (s : Sys) : Prop where
  idle : s.master.pop = .idle
  empty : s.master.srv.jobHead = s.master.srv.jobTail
  rest : s.AtRest numHosts

/-- **A step towards the end**: guarded, without a client, and no node exits. -/
structure Advances (numHosts : ℤ) (s : Sys) (l : SysAct) (s' : Sys) : Prop where
  guarded : OnMaster numHosts (DrainGuard numHosts) s l
  unasked : l.fromClient = false
  step : s.step numHosts lossless l = some s'
  alive : s'.AllAlive numHosts
  accepted : s'.master.accepted = s.master.accepted
  closer : Closer numHosts s' s

section Steps

variable {numHosts : ℤ} {s : Sys}

/-- What is settled is no business of the pop thread. -/
lemma settled_master {l : SysAct} {s' : Sys} (h : Settles numHosts s l s') :
    s'.master.pop = s.master.pop ∧ s'.master.accepted = s.master.accepted ∧
      s'.master.popped = s.master.popped := by
  rcases master_sysStep (sysStep_spec h.step) with hsame | ⟨a, ps, ha, hm⟩
  · rw [hsame]
    exact ⟨rfl, rfl, rfl⟩
  · have hm := masterStep_spec hm
    generalize s'.master = m at hm ⊢
    rcases h.handled a ha with ⟨msg, job, now, rfl, -⟩ | ⟨msg, job, rfl⟩
    · cases hm <;> exact ⟨rfl, rfl, rfl⟩
    · cases hm
      exact ⟨rfl, rfl, rfl⟩

/-- Nothing is outstanding for a job in the waiting loop. -/
lemma not_outstanding_of_wait (h : Drivable numHosts s) {j : PoppedJob} {t : ℕ} {count i : ℤ}
    (hpc : s.master.pop = .wait j t count i) {d : Dispatch} (hd : d ∈ s.outstanding numHosts) :
    d.job ≠ t := by
  rintro rfl
  have hnone := assigned_eq_zero (h.orderly.rounds.inOrder.fresh j _ count i hpc)
  have hlt : s.master.handled d.job < s.master.assigned d.job := (h.exactly.live.of_mem hd).2
  omega

/-- A settling step is a step towards the end, unless the pop thread is sending a job. -/
lemma Settles.advances {l : SysAct} {s' : Sys} (h : Settles numHosts s l s')
    (hd : Drivable numHosts s) (hpc : ∀ j t i k, s.master.pop ≠ .dispatch j t i k) :
    Advances numHosts s l s' := by
  obtain ⟨hpop, haccepted, hpopped⟩ := settled_master h
  refine ⟨fun a ha => ?_, ?_, h.step, h.alive, haccepted, ?_⟩
  · rcases h.handled a ha with ⟨msg, job, now, rfl, hout⟩ | ⟨msg, job, rfl⟩
    · refine ⟨fun j hheld => ?_, ⟨trivial, trivial⟩, trivial⟩
      cases hp : s.master.pop with
      | start | idle =>
          rw [Master.held, hp] at hheld
          cases hheld
      | wait j' t count i =>
          rw [Master.held_of_wait hp] at hheld
          cases hheld
          exact not_outstanding_of_wait hd hp hout rfl
      | dispatch j' t i k => exact hpc j' t i k hp
    · exact ⟨trivial, ⟨trivial, trivial⟩, trivial⟩
  · cases l with
    | submit req now =>
        rcases h.handled _ rfl with ⟨_, _, _, hcontra, -⟩ | ⟨_, _, hcontra⟩ <;> cases hcontra
    | cancel jobId =>
        rcases h.handled _ rfl with ⟨_, _, _, hcontra, -⟩ | ⟨_, _, hcontra⟩ <;> cases hcontra
    | _ => rfl
  · rw [Closer, Sys.rank, Sys.rank, hpop, haccepted, hpopped]
    exact .right _ (.right _ (.left _ _ h.work))

/-- A step of the pop thread that brings the end closer. -/
lemma advances_pop {m : Master} {ps : List Packet} (halive : s.AllAlive numHosts)
    (hm : popStep numHosts 0 s.master = some (m, ps))
    (hround : ∀ j t i k, s.master.pop = .dispatch j t i k → i ≤ j.numReqNodes → k ≤ numHosts)
    (hscan : s.master.pop.LeavesWithEnough numHosts s.master.srv.pcstat)
    (haccepted : m.accepted = s.master.accepted)
    (hcloser : Closer numHosts ((s.setMaster m).send lossless ps) s) :
    ∃ l s', Advances numHosts s l s' := by
  refine ⟨.pop 0, (s.setMaster m).send lossless ps, fun a ha => ?_, rfl, ?_, halive, haccepted,
    hcloser⟩
  · cases ha
    -- the step is taken, so its copy of the command fits
    have hcopies : s.master.CommandCopies := copiesFit_of_step (a := .pop 0) hm
    exact ⟨⟨hcopies, hround⟩, ⟨hcopies, hscan⟩, trivial⟩
  · exact congrArg (Option.map _) hm

/-- The pop thread starts. -/
lemma advances_start (halive : s.AllAlive numHosts) (hpc : s.master.pop = .start) :
    ∃ l s', Advances numHosts s l s' := by
  have hm : popStep numHosts 0 s.master =
      some ({ s.master with srv := s.master.srv.freeAll, pop := .idle }, []) := by
    rw [popStep, hpc]
  refine advances_pop halive hm ?_ ?_ rfl ?_
  · intro j t i k hdispatch
    rw [hpc] at hdispatch
    cases hdispatch
  · rw [hpc]
    trivial
  · rw [Closer, Sys.rank, Sys.rank, hpc]
    exact .right _ (.left _ _ Nat.one_pos)

/-- The next job is taken. The copy of its command fits, as it did when it was submitted. -/
lemma advances_take (hd : Drivable numHosts s) (halive : s.AllAlive numHosts)
    (hpc : s.master.pop = .idle) (hne : s.master.srv.jobHead ≠ s.master.srv.jobTail) :
    ∃ l s', Advances numHosts s l s' := by
  have hnum := hd.orderly.rounds.inOrder.numbered
  have hlt := hnum.popped_lt hne
  obtain ⟨pcomm, hcopy⟩ := Option.isSome_iff_exists.mp
    (hd.orderly.commands _ le_rfl hlt)
  rw [← hnum.tail] at hcopy
  obtain ⟨m, ps, hm, haccepted, hpopped⟩ : ∃ m ps, popStep numHosts 0 s.master = some (m, ps) ∧
      m.accepted = s.master.accepted ∧ m.popped = s.master.popped + 1 := by
    rw [popStep, hpc]
    simp only [jobQueueTake, if_neg hne, hcopy, Option.bind_eq_bind, Option.bind_some,
      Option.pure_def, Option.map_some]
    split_ifs <;> exact ⟨_, _, rfl, rfl, rfl⟩
  refine advances_pop halive hm ?_ ?_ haccepted ?_
  · intro j t i k hdispatch
    rw [hpc] at hdispatch
    cases hdispatch
  · rw [hpc]
    trivial
  · refine .left _ _ ?_
    show m.accepted - m.popped < _
    omega

/-- A step of the dispatch loops stays in them or ends them. -/
lemma PopStep.of_dispatch {now : ℤ} {m m' : Master} {ps : List Packet} {j : PoppedJob} {t : ℕ}
    {i k : ℤ} (h : PopStep numHosts now m m' ps) (hpc : m.pop = .dispatch j t i k) :
    m'.accepted = m.accepted ∧ m'.popped = m.popped ∧
      (m'.pop = .idle ∨ ∃ i' k', m'.pop = .dispatch j t i' k') := by
  cases h with
  | init hold | empty hold | take hold | skip hold | scan hold | again hold | enough hold =>
      rw [hpc] at hold
      cases hold
  | assign hold | next hold | giveUp hold =>
      rw [hpc] at hold
      cases hold
      exact ⟨rfl, rfl, .inr ⟨_, _, rfl⟩⟩
  | finish hold => exact ⟨rfl, rfl, .inl rfl⟩

/-- A job in the dispatch loops is sent on: its step can always be made, meets the guards, and
brings the pop thread closer to the end. -/
lemma advances_dispatch (hd : Drivable numHosts s) (hhosts : numHosts < maxNumHosts)
    (halive : s.AllAlive numHosts) {j : PoppedJob} {t : ℕ} {i k : ℤ}
    (hpc : s.master.pop = .dispatch j t i k) : ∃ l s', Advances numHosts s l s' := by
  obtain ⟨hsupplied, hsent⟩ := hd.orderly.rounds.supplied j t i k hpc
  have hlow := hsupplied.node
  -- the guards need the nodes ahead of the loops, the measure the place in them
  have hin : InHand numHosts j t 0 s.master := by
    rw [InHand, hpc]
    exact ⟨⟨rfl, rfl⟩, by push_cast; omega, hsupplied⟩
  have hjob : inTable maxJobQueue j.jobId := by
    have hid := (hd.exactly.live.tallied.labelled.held j t (Master.held_of_dispatch hpc)).2.2.1
    rw [hid]
    exact inTable_slotOf t
  obtain ⟨m, ps, hm⟩ : ∃ m ps, popStep numHosts 0 s.master = some (m, ps) := by
    rw [popStep, hpc]
    simp only
    split_ifs with hi hk hnode hfree
    · exact ⟨_, _, rfl⟩
    · exact ⟨_, _, rfl⟩
    · exact absurd ⟨by omega, by omega⟩ hnode
    · exact ⟨_, _, rfl⟩
    · exact ⟨_, _, rfl⟩
  have hstep := popStep_spec hm
  obtain ⟨haccepted, hpopped, hnext⟩ := hstep.of_dispatch hpc
  have hpending : s.master.pop.pending numHosts
      = s.master.pop.left numHosts s.master.srv.pcstat := by
    rw [hpc]
    rfl
  refine advances_pop halive hm ?_ ?_ haccepted ?_
  · intro j' t' i' k' hdispatch hi
    rw [hpc] at hdispatch
    cases hdispatch
    exact hsupplied.le_numHosts hi
  · rw [hpc]
    trivial
  · rw [Closer, Sys.rank, Sys.rank, Sys.send_master, Sys.setMaster_master, haccepted, hpopped,
      hpending]
    refine .right _ (.left _ _ ?_)
    rcases hnext with hidle | ⟨i', k', hnext⟩
    · rw [hidle]
      exact hin.left_pos
    · rcases hin.pop hstep with ⟨-, hlt⟩ | hplaced
      · rw [hnext] at hlt ⊢
        exact hlt
      · rw [hplaced.idle] at hnext
        cases hnext

/-- At rest every node is FREE. -/
lemma free_of_rest (hd : Drivable numHosts s) (hhosts : numHosts < maxNumHosts)
    (hrest : s.AtRest numHosts) (hpc : s.master.pop ≠ .start) {k : ℤ} (hlow : 1 ≤ k)
    (hhigh : k ≤ numHosts) : s.master.srv.pcstat k = .free := by
  refine (hd.orderly.states hpc k ⟨by omega, by omega⟩).resolve_right fun hbusy => ?_
  have hone : dispatchesTo (s.outstanding numHosts) k
      = if s.master.srv.pcstat k = .busy then 1 else 0 := hd.exclusive.busy k
  rw [hrest.outstanding_eq, if_pos hbusy] at hone
  cases hone

/-- A step of the waiting loop stays in it or begins the dispatch. -/
lemma PopStep.of_wait {now : ℤ} {m m' : Master} {ps : List Packet} {j : PoppedJob} {t : ℕ}
    {count i : ℤ} (h : PopStep numHosts now m m' ps) (hpc : m.pop = .wait j t count i) :
    ps = [] ∧ m'.accepted = m.accepted ∧ m'.popped = m.popped ∧
      (m'.pop = .dispatch j t 1 1 ∨ ∃ count' i', m'.pop = .wait j t count' i') := by
  cases h with
  | init hold | empty hold | take hold | skip hold | assign hold | next hold | giveUp hold =>
      rw [hpc] at hold
      cases hold
  | finish hold =>
      rw [hpc] at hold
      cases hold
  | scan hold | again hold =>
      rw [hpc] at hold
      cases hold
      exact ⟨rfl, rfl, rfl, .inr ⟨_, _, rfl⟩⟩
  | enough hold =>
      rw [hpc] at hold
      cases hold
      exact ⟨rfl, rfl, rfl, .inl rfl⟩

/-- A job in the waiting loop finds its nodes when the cluster is at rest. While it is not, the
loop may go round and round, and it is the rest of the cluster that comes closer. -/
lemma advances_wait (hd : Drivable numHosts s) (hhosts : numHosts < maxNumHosts)
    (halive : s.AllAlive numHosts) (hrest : s.AtRest numHosts) {j : PoppedJob} {t : ℕ}
    {count i : ℤ} (hpc : s.master.pop = .wait j t count i) :
    ∃ l s', Advances numHosts s l s' := by
  obtain ⟨hcount, hlow⟩ := hd.orderly.scanning.count j t count i hpc
  have hneed := hd.carrying.placing.fits j t (Master.held_of_wait hpc)
  have hfree : ∀ k, 1 ≤ k → k ≤ numHosts → s.master.srv.pcstat k = .free := fun k =>
    free_of_rest hd hhosts hrest (by rw [hpc]; simp)
  -- a job that was handed out asks for at most `num_hosts` nodes, and all of them are FREE
  have hall : j.numReqNodes ≤ freeFrom numHosts s.master.srv.pcstat 1 := by
    rw [freeFrom_eq_card le_rfl, Finset.filter_true_of_mem fun k hk => ?_, Int.card_Icc]
    · omega
    · exact hfree k (Finset.mem_Icc.mp hk).1 (Finset.mem_Icc.mp hk).2
  have hin : InHand numHosts j t (s.master.assigned t) s.master := by
    rw [InHand, hpc]
    exact ⟨⟨rfl, rfl⟩, hcount, hlow, rfl, hall⟩
  obtain ⟨m, ps, hm⟩ : ∃ m ps, popStep numHosts 0 s.master = some (m, ps) := by
    rw [popStep, hpc]
    simp only
    split_ifs with hi hnode
    · exact ⟨_, _, rfl⟩
    · exact absurd ⟨by omega, by omega⟩ hnode
    · exact ⟨_, _, rfl⟩
    · exact ⟨_, _, rfl⟩
  have hstep := popStep_spec hm
  obtain ⟨rfl, haccepted, hpopped, hnext⟩ := hstep.of_wait hpc
  have hwork : ((s.setMaster m).send lossless []).work numHosts = s.work numHosts :=
    work_send numHosts (s.setMaster m) []
  refine advances_pop halive hm ?_ ?_ haccepted ?_
  · intro j' t' i' k' hdispatch
    rw [hpc] at hdispatch
    cases hdispatch
  · rw [hpc]
    intro _ _
    rw [← freeFrom_one]
    exact hall
  · rw [Closer, Sys.rank, Sys.rank, Sys.send_master, Sys.setMaster_master, haccepted, hpopped,
      hwork]
    rcases hin.pop hstep with ⟨-, hlt⟩ | hplaced
    · rcases hnext with hnext | ⟨count', i', hnext⟩
      · have hround := left_round numHosts (fun _ => .free) j t 1
        rw [hnext, hpc]
        refine .right _ (.left _ _ (Nat.lt_succ_of_le ?_))
        rwa [add_sub_cancel_right] at hround
      · rw [hnext, hpc] at hlt ⊢
        exact .right _ (.right _ (.right _ hlt))
    · rcases hnext with hnext | ⟨count', i', hnext⟩ <;>
        rw [hplaced.idle] at hnext <;> cases hnext

/-- **While something is left to do** some step leads closer to the end. -/
lemma exists_closer (hd : Drivable numHosts s) (hhosts : numHosts < maxNumHosts)
    (halive : s.AllAlive numHosts) (hnot : ¬ Done numHosts s) :
    ∃ l s', Advances numHosts s l s' := by
  have hsettle : ¬ s.AtRest numHosts → (∀ j t i k, s.master.pop ≠ .dispatch j t i k) →
      ∃ l s', Advances numHosts s l s' := by
    intro hrest hpc
    obtain ⟨l, s', h⟩ := exists_settling hhosts hd.carrying hd.exactly.live.tallied halive hrest
    exact ⟨l, s', h.advances hd hpc⟩
  cases hpc : s.master.pop with
  | start => exact advances_start halive hpc
  | dispatch j t i k => exact advances_dispatch hd hhosts halive hpc
  | wait j t count i =>
      by_cases hrest : s.AtRest numHosts
      · exact advances_wait hd hhosts halive hrest hpc
      · exact hsettle hrest (by simp [hpc])
  | idle =>
      by_cases hrest : s.AtRest numHosts
      · refine advances_take hd halive hpc fun hempty => hnot ⟨hpc, hempty, hrest⟩
      · exact hsettle hrest (by simp [hpc])

end Steps

/-! ### The end -/

/-- Nothing is left to do: no job waits or is in hand, nothing is under way, every node is
FREE, and the jobs that ask for nodes the cluster has are FINISHED. -/
structure Drained (numHosts : ℤ) (s : Sys) : Prop where
  done : Done numHosts s
  free : ∀ k, 1 ≤ k → k ≤ numHosts → s.master.srv.pcstat k = .free
  finished : ∀ t, s.master.Owns t →
    Placeable numHosts (s.master.srv.jobq (slotOf t)).numReqNodes →
    (s.master.srv.jobq (slotOf t)).jobStat = .finished

/-- What is left when the cluster is done: every node is FREE, and every job that has its slot and
could be placed is FINISHED. -/
lemma drained_of_done {numHosts : ℤ} {s : Sys} (hd : Drivable numHosts s)
    (hhosts : numHosts < maxNumHosts) (h : Done numHosts s) : Drained numHosts s := by
  have hnum := hd.orderly.rounds.inOrder.numbered
  have hroom := hd.orderly.rounds.inOrder.room
  refine ⟨h, fun k => free_of_rest hd hhosts h.rest (by rw [h.idle]; simp), fun t howns hneed => ?_⟩
  have htaken : s.master.accepted = s.master.popped := by
    have hempty := h.empty
    have hle := hnum.popped_le
    rw [hnum.head, hnum.tail, slotOf_eq_iff] at hempty
    rw [maxJobQueue] at *
    omega
  have hdisp : s.master.Dispatched t := by
    refine ⟨htaken ▸ howns.1, fun j hheld => ?_⟩
    rw [Master.held, h.idle] at hheld
    cases hheld
  obtain ⟨hfinished, hsent⟩ := hd.exactly.counted howns hneed.1 hneed.2
  have htally : s.master.assigned t
      = s.master.handled t + dispatchesOf (s.outstanding numHosts) t :=
    hd.exactly.live.tallied.tally t
  rw [h.rest.outstanding_eq] at htally
  have hheard : s.master.assigned t = s.master.handled t := htally
  exact hfinished.mpr ⟨hdisp, (congrArg Nat.cast hheard.symm).trans (hsent hdisp)⟩

/-- **The cluster can always get done.** From every state of the guarded runs over a lossless
network in which no node has exited, and without any further request, a guarded run leads to a
state in which no job waits, nothing is under way, every node is FREE, and every job that has
its slot and asks for a number of nodes the cluster has is FINISHED. -/
theorem cluster_drains {numHosts : ℤ} {ips : ℤ → Bytes} {s : Sys}
    (hhosts : numHosts < maxNumHosts)
    (h : (clusterMachine numHosts lossless ips).Reach
      (OnMaster numHosts (DrainGuard numHosts)) s)
    (halive : s.AllAlive numHosts) :
    ∃ ls s', (clusterMachine numHosts lossless ips).GuardedRun
        (fun s l => OnMaster numHosts (DrainGuard numHosts) s l ∧ l.fromClient = false) ls s ∧
      (clusterMachine numHosts lossless ips).run ls s = some s' ∧
      s'.master.accepted = s.master.accepted ∧ Drained numHosts s' := by
  obtain ⟨ls, s', hguard, hrun, hreach, ⟨-, haccepted⟩, hdone⟩ :=
    h.drive (wellFounded_closer numHosts) (fun _ _ => And.left)
      (I := fun u => u.AllAlive numHosts ∧ u.master.accepted = s.master.accepted)
      (P := Done numHosts) (fun u hu hI hnot => by
        obtain ⟨l, u', hadv⟩ := exists_closer (drivable_of_reach hu) hhosts hI.1 hnot
        exact ⟨l, u', ⟨hadv.guarded, hadv.unasked⟩, hadv.step,
          ⟨hadv.alive, hadv.accepted.trans hI.2⟩, hadv.closer⟩) ⟨halive, rfl⟩
  exact ⟨ls, s', hguard, hrun, haccepted, drained_of_done (drivable_of_reach hreach) hhosts hdone⟩

/-- A cluster of one node that was sent its job gets done with it. -/
theorem cluster_drains_one : ∃ s ls s',
    (clusterMachine 1 lossless fun _ => []).Reach (OnMaster 1 (DrainGuard 1)) s ∧
      (s.master.srv.jobq 0).jobStat = .running ∧
      (clusterMachine 1 lossless fun _ => []).run ls s = some s' ∧ Drained 1 s' := by
  have hrun : (((clusterMachine 1 lossless fun _ => []).restrict fun s l =>
      (l.masterAct 1).all fun a => decide (DrainGuard 1 s.master a)).run assignOne
        (.init fun _ => [])).any (fun s =>
          decide ((s.master.srv.jobq 0).jobStat = .running) && (s.node 1).alive) = true := by
    decide +kernel
  obtain ⟨s, hs, hp⟩ := exists_reach_of_tested (DrainGuard 1) hrun
  rw [Bool.and_eq_true, decide_eq_true_eq] at hp
  have halive : s.AllAlive 1 := by
    intro k hlow hhigh
    obtain rfl : k = 1 := le_antisymm hhigh hlow
    exact hp.2
  obtain ⟨ls, s', -, hend, -, hdrained⟩ := cluster_drains (by decide) hs halive
  exact ⟨s, ls, s', hs, hp.1, hend, hdrained⟩

end Epbs
