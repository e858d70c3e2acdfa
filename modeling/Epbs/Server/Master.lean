/-
The master process: the steps its threads take on the shared tables, between
any two of which another thread may run.

* `jobQueueResult1`, `epbsHostStatus`: a report that `job_queue_result_1` or
  `epbs_host_status` has read;
* `PopPc`, `popStep`: `job_queue_pop` with its program counter, one step for a
  critical section, for a node looked at in the waiting loop and for a node
  looked at in the dispatch loops; `PopStep` and `popStep_spec` list what a step
  can do;
* `cancelTargets`: the nodes a CANCEL is sent to;
* `Master.step`: a step of any thread, with the packets it sends;
* `CopiesFit`: no copy of the step leaves its field.

Next to the tables the master carries what a proof needs to speak of jobs:
SUBMITs are numbered in the order they are handled, `jobOf` is the number of the
job last stored in a slot, and `log` is the history, latest event first.  The
code never reads them.
-/
import Epbs.Server.Waiting

namespace Epbs

/-! ### Reports -/

/-- `pcstat[src] = HOST_STAT_FREE; jobnodes[job_id]--`. -/
def Server.countDown (s : Server) (src jobId : ℤ) : Server :=
  (s.release src).setJobnodes jobId (s.jobnodes jobId - 1)

/-- A slot is marked FINISHED. -/
def BatchJobInfo.finish (job : BatchJobInfo) (now : ℤ) : BatchJobInfo :=
  { job with jobStat := .finished, time3 := now }

/-- `jobq[job_id].job_stat = JOB_STAT_FINISHED`, with the time. -/
def Server.finish (s : Server) (jobId now : ℤ) : Server :=
  s.writeSlot jobId ((s.jobq jobId).finish now)

/-- `hostq[host_id].host_stat = host_status`. -/
@[simps -fullyApplied]
def Server.setHostStat (s : Server) (hostId hostStatus : ℤ) : Server :=
  { s with
    hostq := Function.update s.hostq hostId { s.hostq hostId with hostStat := hostStatus } }

/-- **`job_queue_result_1`**, once a report is read: a FINISHED report frees the
node and counts the job down, and at zero the job is FINISHED.  Not defined if
an index leaves its table. -/
def jobQueueResult1 (now : ℤ) (msg : Msg) (s : Server) : Option Server :=
  if msg.m2 = JobStat.finished.code then
    if inTable maxNumHosts msg.src ∧ inTable maxJobQueue msg.m1 then
      let s := s.countDown msg.src msg.m1
      if s.jobnodes msg.m1 = 0 then some (s.finish msg.m1 now) else some s
    else none
  else some s

/-- **`epbs_host_status`**, once a report is read. -/
def epbsHostStatus (msg : Msg) (s : Server) : Option Server :=
  if inTable (maxNumHosts + 1) msg.m1 then some (s.setHostStat msg.m1 msg.m2) else none

/-! ### The state of the master -/

/-- Where `job_queue_pop` stands: before its first loop, at the top of
`while(true)`, at node `i` of a scan with the current count, or at node `k` in
round `i` of the dispatch loops; the last two with the private copy of the job
and its number. -/
inductive PopPc where
  | start
  | idle
  | wait (j : PoppedJob) (job : ℕ) (count i : ℤ)
  | dispatch (j : PoppedJob) (job : ℕ) (i k : ℤ)

/-- The history of the master: a submit message sent for a job to a node, a
FINISHED report or a host report about a job read from a node, a job marked
FINISHED, a CANCEL handled for a job that no node had been given yet. -/
inductive Event where
  | assigned (job : ℕ) (node : ℤ)
  | handled (job : ℕ) (node : ℤ)
  | hostHandled (job : ℕ) (node : ℤ)
  | finished (job : ℕ)
  | cancelled (job : ℕ)
  deriving DecidableEq

/-- A submit message of the job. -/
def Event.isAssigned (job : ℕ) : Event → Bool
  | .assigned t _ => t = job
  | _ => false

/-- A FINISHED report of the job. -/
def Event.isHandled (job : ℕ) : Event → Bool
  | .handled t _ => t = job
  | _ => false

/-- A FINISHED report counts for its job. -/
lemma countP_isHandled_cons (t job : ℕ) (k : ℤ) (log : List Event) :
    (Event.handled job k :: log).countP (Event.isHandled t)
      = log.countP (Event.isHandled t) + if job = t then 1 else 0 := by
  by_cases h : job = t <;> simp [Event.isHandled, h]

/-- A submit message counts for its job. -/
lemma countP_isAssigned_cons (t job : ℕ) (k : ℤ) (log : List Event) :
    (Event.assigned job k :: log).countP (Event.isAssigned t)
      = log.countP (Event.isAssigned t) + if job = t then 1 else 0 := by
  by_cases h : job = t <;> simp [Event.isAssigned, h]

/-- The master: its tables, its pop thread, and the bookkeeping of jobs. -/
structure Master where
  srv : Server
  pop : PopPc
  accepted : ℕ
  popped : ℕ
  jobOf : ℤ → ℕ
  log : List Event

namespace Master

/-- The master after `epbssrv_configure`. -/
def init (ips : ℤ → Bytes) : Master where
  srv := configure ips
  pop := .start
  accepted := 0
  popped := 0
  jobOf := fun _ => 0
  log := []

/-- The number of submit messages sent for a job. -/
def assigned (m : Master) (job : ℕ) : ℕ := m.log.countP (Event.isAssigned job)

/-- The number of FINISHED reports of a job that were handled. -/
def handled (m : Master) (job : ℕ) : ℕ := m.log.countP (Event.isHandled job)

/-- The job was marked FINISHED. -/
def finished (m : Master) (job : ℕ) : Bool := decide (Event.finished job ∈ m.log)

/-- The job the pop thread holds a private copy of, with its number. -/
def held (m : Master) : Option (PoppedJob × ℕ) :=
  match m.pop with
  | .start | .idle => none
  | .wait j job _ _ | .dispatch j job _ _ => some (j, job)

/-- The jobs with an id that wait for their nodes, and the number of nodes each
asks for: INQUEUE, or held by the pop thread and not sent to any node yet. -/
def waitingFor (m : Master) (jobId : ℤ) : List (ℕ × ℤ) :=
  (if (m.srv.jobq jobId).jobStat = .inqueue then
    [(m.jobOf jobId, (m.srv.jobq jobId).numReqNodes)] else []) ++
  (m.held.toList.filter fun h => h.1.jobId = jobId ∧ m.assigned h.2 = 0).map
    fun h => (h.2, h.1.numReqNodes)

end Master

/-! ### The pop thread -/

/-- The first loop of `job_queue_pop`: every node FREE, no job assigned. -/
@[simps -fullyApplied]
def Server.freeAll (s : Server) : Server :=
  { s with
    pcstat := fun i => if inTable maxNumHosts i then .free else s.pcstat i
    nodesstat := fun i => if inTable maxNumHosts i then -1 else s.nodesstat i }

/-- `job->time2 = time(NULL)`. -/
def Server.stamp (s : Server) (slot now : ℤ) : Server :=
  s.writeSlot slot { s.jobq slot with time2 := now }

section Fields

variable (s : Server) (slot now i : ℤ)

@[simp] lemma stamp_jobnodes : (s.stamp slot now).jobnodes = s.jobnodes := rfl

@[simp] lemma stamp_jobStat :
    ((s.stamp slot now).jobq i).jobStat = (s.jobq i).jobStat :=
  s.writeSlot_field (·.jobStat) (by rfl) i

@[simp] lemma stamp_numReqNodes :
    ((s.stamp slot now).jobq i).numReqNodes = (s.jobq i).numReqNodes :=
  s.writeSlot_field (·.numReqNodes) (by rfl) i

@[simp] lemma countDown_jobq (src jobId : ℤ) : (s.countDown src jobId).jobq = s.jobq := rfl

/-- The counter of the job a report names. -/
lemma countDown_jobnodes (src jobId : ℤ) :
    (s.countDown src jobId).jobnodes = Function.update s.jobnodes jobId (s.jobnodes jobId - 1) :=
  rfl

@[simp] lemma finish_jobnodes (jobId : ℤ) : (s.finish jobId now).jobnodes = s.jobnodes := rfl

@[simp] lemma finish_numReqNodes (jobId : ℤ) :
    ((s.finish jobId now).jobq i).numReqNodes = (s.jobq i).numReqNodes :=
  s.writeSlot_field (·.numReqNodes) (by rfl) i

lemma finish_jobStat (jobId : ℤ) :
    ((s.finish jobId now).jobq i).jobStat
      = if i = jobId then .finished else (s.jobq i).jobStat := by
  rw [Server.finish, Server.writeSlot_jobq, Function.update_apply]
  split_ifs <;> rfl

end Fields

/-- **A step of `job_queue_pop`**, with what it sends. -/
def popStep (numHosts now : ℤ) (m : Master) : Option (Master × List Packet) :=
  match m.pop with
  | .start => some ({ m with srv := m.srv.freeAll, pop := .idle }, [])
  | .idle =>
      (jobQueueTake m.srv).map fun
        | (none, _) => (m, [])
        | (some j, srv) =>
            if j.numReqNodes ≤ numHosts then
              ({ m with
                srv := srv
                popped := m.popped + 1
                pop := .wait j (m.jobOf m.srv.jobTail) 0 1 }, [])
            else
              -- more nodes than there are: a warning, and on to the next job
              ({ m with
                srv := srv.stamp j.slot now
                popped := m.popped + 1
                pop := .idle }, [])
  | .wait j job count i =>
      if i ≤ numHosts then
        if inTable maxNumHosts i then
          some ({ m with pop := .wait j job (countNode m.srv.pcstat count i) (i + 1) }, [])
        else none
      else if count < j.numReqNodes then
        -- `count` keeps its value into the next scan
        some ({ m with pop := .wait j job count 1 }, [])
      else some ({ m with srv := m.srv.stamp j.slot now, pop := .dispatch j job 1 1 }, [])
  | .dispatch j job i k =>
      if i ≤ j.numReqNodes then
        if k ≤ numHosts then
          if inTable maxNumHosts k then
            if m.srv.pcstat k = .free then
              some ({ m with
                srv := m.srv.assign k j.jobId
                pop := .dispatch j job (i + 1) 1
                log := .assigned job k :: m.log },
                [serverSingleJobSubmit serverMachineId k j.pcomm j.jobId job])
            else some ({ m with pop := .dispatch j job i (k + 1) }, [])
          else none
        else some ({ m with pop := .dispatch j job (i + 1) 1 }, [])
      else if inTable maxJobQueue j.jobId then
        some ({ m with srv := m.srv.setJobnodes j.jobId j.numReqNodes, pop := .idle }, [])
      else none

/-- What a step of the pop thread can do. -/
inductive PopStep (numHosts now : ℤ) (m : Master) : Master → List Packet → Prop
  | init (hpc : m.pop = .start) :
      PopStep numHosts now m { m with srv := m.srv.freeAll, pop := .idle } []
  | empty (hpc : m.pop = .idle) (hempty : m.srv.jobHead = m.srv.jobTail) :
      PopStep numHosts now m m []
  | take {j : PoppedJob} {srv : Server} (hpc : m.pop = .idle)
      (htake : jobQueueTake m.srv = some (some j, srv)) (hfits : j.numReqNodes ≤ numHosts) :
      PopStep numHosts now m
        { m with
          srv := srv
          popped := m.popped + 1
          pop := .wait j (m.jobOf m.srv.jobTail) 0 1 } []
  | skip {j : PoppedJob} {srv : Server} (hpc : m.pop = .idle)
      (htake : jobQueueTake m.srv = some (some j, srv)) (hlarge : numHosts < j.numReqNodes) :
      PopStep numHosts now m
        { m with
          srv := srv.stamp j.slot now
          popped := m.popped + 1
          pop := .idle } []
  | scan {j : PoppedJob} {job : ℕ} {count i : ℤ} (hpc : m.pop = .wait j job count i)
      (hi : i ≤ numHosts) :
      PopStep numHosts now m
        { m with pop := .wait j job (countNode m.srv.pcstat count i) (i + 1) } []
  | again {j : PoppedJob} {job : ℕ} {count i : ℤ} (hpc : m.pop = .wait j job count i)
      (hi : numHosts < i) (hcount : count < j.numReqNodes) :
      PopStep numHosts now m { m with pop := .wait j job count 1 } []
  | enough {j : PoppedJob} {job : ℕ} {count i : ℤ} (hpc : m.pop = .wait j job count i)
      (hi : numHosts < i) (hcount : j.numReqNodes ≤ count) :
      PopStep numHosts now m
        { m with srv := m.srv.stamp j.slot now, pop := .dispatch j job 1 1 } []
  | assign {j : PoppedJob} {job : ℕ} {i k : ℤ} (hpc : m.pop = .dispatch j job i k)
      (hi : i ≤ j.numReqNodes) (hk : k ≤ numHosts) (hin : inTable maxNumHosts k)
      (hfree : m.srv.pcstat k = .free) :
      PopStep numHosts now m
        { m with
          srv := m.srv.assign k j.jobId
          pop := .dispatch j job (i + 1) 1
          log := .assigned job k :: m.log }
        [serverSingleJobSubmit serverMachineId k j.pcomm j.jobId job]
  | next {j : PoppedJob} {job : ℕ} {i k : ℤ} (hpc : m.pop = .dispatch j job i k)
      (hi : i ≤ j.numReqNodes) (hk : k ≤ numHosts) (hbusy : m.srv.pcstat k ≠ .free) :
      PopStep numHosts now m { m with pop := .dispatch j job i (k + 1) } []
  | giveUp {j : PoppedJob} {job : ℕ} {i k : ℤ} (hpc : m.pop = .dispatch j job i k)
      (hi : i ≤ j.numReqNodes) (hk : numHosts < k) :
      PopStep numHosts now m { m with pop := .dispatch j job (i + 1) 1 } []
  | finish {j : PoppedJob} {job : ℕ} {i k : ℤ} (hpc : m.pop = .dispatch j job i k)
      (hi : j.numReqNodes < i) (hin : inTable maxJobQueue j.jobId) :
      PopStep numHosts now m
        { m with srv := m.srv.setJobnodes j.jobId j.numReqNodes, pop := .idle } []

/-- Every step of the pop thread is one of these. Proofs about the thread split the cases here
and never unfold `popStep`. -/
lemma popStep_spec {numHosts now : ℤ} {m m' : Master} {ps : List Packet}
    (h : popStep numHosts now m = some (m', ps)) : PopStep numHosts now m m' ps := by
  rw [popStep] at h
  cases hpc : m.pop with
  | start =>
      simp only [hpc] at h
      cases h
      exact .init hpc
  | idle =>
      simp only [hpc] at h
      obtain ⟨⟨taken, srv⟩, htake, h⟩ := Option.map_eq_some_iff.mp h
      cases taken with
      | none =>
          cases h
          rcases jobQueueTake_cases htake with ⟨hempty, _, _⟩ | ⟨_, _, _, hcontra, _⟩
          · exact .empty hpc hempty
          · cases hcontra
      | some j =>
          simp only at h
          split_ifs at h with hfits
          · cases h
            exact .take hpc htake hfits
          · cases h
            exact .skip hpc htake (lt_of_not_ge hfits)
  | wait j job count i =>
      simp only [hpc] at h
      split_ifs at h with hi hin hcount
      · cases h
        exact .scan hpc hi
      · cases h
        exact .again hpc (lt_of_not_ge hi) hcount
      · cases h
        exact .enough hpc (lt_of_not_ge hi) (le_of_not_gt hcount)
  | dispatch j job i k =>
      simp only [hpc] at h
      split_ifs at h with hi hk hin hfree hin
      · cases h
        exact .assign hpc hi hk hin hfree
      · cases h
        exact .next hpc hi hk hfree
      · cases h
        exact .giveUp hpc hi (lt_of_not_ge hk)
      · cases h
        exact .finish hpc (lt_of_not_ge hi) hin

namespace Master

variable {m : Master} {j : PoppedJob} {job : ℕ} {i k count : ℤ}

/-- The job in hand, in the waiting loop and in the dispatch loops. -/
lemma held_of_wait (hpc : m.pop = .wait j job count i) : m.held = some (j, job) := by
  rw [held, hpc]

lemma held_of_dispatch (hpc : m.pop = .dispatch j job i k) : m.held = some (j, job) := by
  rw [held, hpc]

end Master

/-- **The job in hand** after a step of the pop thread: none, the one before, or the one that
was taken. -/
lemma PopStep.held_cases {numHosts now : ℤ} {m m' : Master} {ps : List Packet}
    (h : PopStep numHosts now m m' ps) :
    m'.held = none ∨ (m'.held = m.held ∧ m'.popped = m.popped) ∨
      ∃ j srv, jobQueueTake m.srv = some (some j, srv) ∧ j.numReqNodes ≤ numHosts ∧
        m'.held = some (j, m.jobOf m.srv.jobTail) ∧ m'.popped = m.popped + 1 := by
  cases h with
  | init | skip | finish => exact .inl rfl
  | empty => exact .inr (.inl ⟨rfl, rfl⟩)
  | take hpc htake hfits => exact .inr (.inr ⟨_, _, htake, hfits, rfl, rfl⟩)
  | scan hpc | again hpc | enough hpc =>
      exact .inr (.inl ⟨(Master.held_of_wait hpc).symm, rfl⟩)
  | assign hpc | next hpc | giveUp hpc =>
      exact .inr (.inl ⟨(Master.held_of_dispatch hpc).symm, rfl⟩)

/-! ### All threads -/

/-- The nodes `server_single_job_cancel` is called for. -/
def cancelTargets (numHosts jobId : ℤ) (s : Server) : List ℤ :=
  (hostIds numHosts).filter fun k => s.nodesstat k = jobId

/-- What a thread of the master handles: a request read by the job monitor, a
step of the pop thread, a report read by one of the two other monitors. -/
inductive MasterAct where
  | submit (req : SubmitRequest) (now : ℤ)
  | cancel (jobId : ℤ)
  | pop (now : ℤ)
  | result (msg : Msg) (job : ℕ) (now : ℤ)
  | hostStatus (msg : Msg) (job : ℕ)

namespace Master

/-- A SUBMIT is numbered, and its slot is the job's. -/
def submit (req : SubmitRequest) (now : ℤ) (m : Master) : Option Master :=
  (jobMonitorSubmit req now m.srv).map fun (srv, reply) =>
    { m with
      srv := srv
      accepted := m.accepted + 1
      jobOf := Function.update m.jobOf reply.newJobId m.accepted }

/-- **CANCEL** (`job_monitor_etransfer`, `MSG_TYPE_JOB_CANCEL`): a cancel message
to each node whose record names the job; the queue is not looked at. -/
def cancel (numHosts jobId : ℤ) (m : Master) : Option (Master × List Packet) :=
  if numHosts < maxNumHosts then
    some ({ m with log := (m.waitingFor jobId).map (fun w => .cancelled w.1) ++ m.log },
      (cancelTargets numHosts jobId m.srv).map fun k =>
        serverSingleJobCancel serverMachineId jobId k (m.jobOf jobId))
  else none

/-- A report of a node about one of its dispatches. -/
def result (msg : Msg) (job : ℕ) (now : ℤ) (m : Master) : Option Master :=
  (jobQueueResult1 now msg m.srv).map fun srv =>
    if msg.m2 = JobStat.finished.code then
      { m with
        srv := srv
        log := (if srv.jobnodes msg.m1 = 0 then [.finished (m.jobOf msg.m1)] else []) ++
          .handled job msg.src :: m.log }
    else { m with srv := srv }

/-- A host report of a node. -/
def hostStatus (msg : Msg) (job : ℕ) (m : Master) : Option Master :=
  (epbsHostStatus msg m.srv).map fun srv =>
    { m with srv := srv, log := .hostHandled job msg.src :: m.log }

/-- **A step of the master**, with the packets it sends. -/
def step (numHosts : ℤ) : MasterAct → Master → Option (Master × List Packet)
  | .submit req now, m => (m.submit req now).map (·, [])
  | .cancel jobId, m => m.cancel numHosts jobId
  | .pop now, m => popStep numHosts now m
  | .result msg job now, m => (m.result msg job now).map (·, [])
  | .hostStatus msg job, m => (m.hostStatus msg job).map (·, [])

/-- If the pop thread takes a job next, it can copy the command. -/
def CommandCopies (m : Master) : Prop :=
  m.pop = .idle → m.srv.jobHead ≠ m.srv.jobTail →
    (sprintf 32 (m.srv.jobq m.srv.jobTail).pcomm
      (m.srv.jobq m.srv.jobTail).pcomm.length).isSome = true

instance (m : Master) : Decidable m.CommandCopies :=
  match hpc : m.pop with
  | .idle => decidable_of_iff (m.srv.jobHead ≠ m.srv.jobTail →
      (sprintf 32 (m.srv.jobq m.srv.jobTail).pcomm
        (m.srv.jobq m.srv.jobTail).pcomm.length).isSome = true)
      ⟨fun h _ => h, fun h => h hpc⟩
  | .start => isTrue fun hidle => PopPc.noConfusion (hpc.symm.trans hidle)
  | .wait _ _ _ _ => isTrue fun hidle => PopPc.noConfusion (hpc.symm.trans hidle)
  | .dispatch _ _ _ _ => isTrue fun hidle => PopPc.noConfusion (hpc.symm.trans hidle)

end Master

/-- **The copies that a step makes stay inside their fields**: those of the two
strings of a SUBMIT, and that of the command of the job that the pop thread takes
in its `pcomm[32]`.  What a copy that leaves its field overwrites is not modelled:
such a step is not defined, and the guards on runs ask for this. -/
def CopiesFit (m : Master) : MasterAct → Prop
  | .submit req _ => req.CopiesFit
  | .pop _ => m.CommandCopies
  | _ => True

instance (m : Master) : (a : MasterAct) → Decidable (CopiesFit m a)
  | .submit req _ => inferInstanceAs (Decidable req.CopiesFit)
  | .pop _ => inferInstanceAs (Decidable m.CommandCopies)
  | .cancel _ | .result _ _ _ | .hostStatus _ _ => isTrue trivial

/-- A step that is defined makes no copy that leaves its field. -/
lemma copiesFit_of_step {numHosts : ℤ} {m : Master} {a : MasterAct}
    {result : Master × List Packet} (h : m.step numHosts a = some result) : CopiesFit m a := by
  cases a with
  | submit req now =>
      obtain ⟨m', hsub, -⟩ := Option.map_eq_some_iff.mp h
      obtain ⟨stored, hjob, -⟩ := Option.map_eq_some_iff.mp hsub
      exact jobMonitorSubmit_isSome_iff.mp (Option.isSome_of_eq_some hjob)
  | pop now =>
      intro hidle
      simp only [Master.step, popStep, hidle] at h
      obtain ⟨taken, htake, -⟩ := Option.map_eq_some_iff.mp h
      exact jobQueueTake_isSome_iff.mp (Option.isSome_of_eq_some htake)
  | _ => trivial

/-- What a step of the master can do, with the packets it sends: a SUBMIT, a CANCEL, a step of the
pop thread, or a report that was read. -/
inductive MasterStep (numHosts : ℤ) (m : Master) :
    MasterAct → Master → List Packet → Prop
  | submit (req : SubmitRequest) (now : ℤ) (pcomm username : Bytes) :
      MasterStep numHosts m (.submit req now)
        { m with
          srv := (m.srv.writeSlot m.srv.jobHead (req.store pcomm username now m.srv.jobHead
            (m.srv.jobq m.srv.jobHead))).advanceHead
          accepted := m.accepted + 1
          jobOf := Function.update m.jobOf m.srv.jobHead m.accepted } []
  | cancel (jobId : ℤ) (hhosts : numHosts < maxNumHosts) :
      MasterStep numHosts m (.cancel jobId)
        { m with log := (m.waitingFor jobId).map (fun w => .cancelled w.1) ++ m.log }
        ((cancelTargets numHosts jobId m.srv).map fun k =>
          serverSingleJobCancel serverMachineId jobId k (m.jobOf jobId))
  | pop (now : ℤ) {m' : Master} {ps : List Packet} (hpop : PopStep numHosts now m m' ps) :
      MasterStep numHosts m (.pop now) m' ps
  | other (msg : Msg) (job : ℕ) (now : ℤ) (hm2 : msg.m2 ≠ JobStat.finished.code) :
      MasterStep numHosts m (.result msg job now) m []
  | report (msg : Msg) (job : ℕ) (now : ℤ) (hm2 : msg.m2 = JobStat.finished.code)
      (hsrc : inTable maxNumHosts msg.src) (hjob : inTable maxJobQueue msg.m1)
      (hmore : m.srv.jobnodes msg.m1 - 1 ≠ 0) :
      MasterStep numHosts m (.result msg job now)
        { m with
          srv := m.srv.countDown msg.src msg.m1
          log := .handled job msg.src :: m.log } []
  | lastReport (msg : Msg) (job : ℕ) (now : ℤ) (hm2 : msg.m2 = JobStat.finished.code)
      (hsrc : inTable maxNumHosts msg.src) (hjob : inTable maxJobQueue msg.m1)
      (hlast : m.srv.jobnodes msg.m1 - 1 = 0) :
      MasterStep numHosts m (.result msg job now)
        { m with
          srv := (m.srv.countDown msg.src msg.m1).finish msg.m1 now
          log := .finished (m.jobOf msg.m1) :: .handled job msg.src :: m.log } []
  | hostStatus (msg : Msg) (job : ℕ) :
      MasterStep numHosts m (.hostStatus msg job)
        { m with
          srv := m.srv.setHostStat msg.m1 msg.m2
          log := .hostHandled job msg.src :: m.log } []

/-- Every report read by `job_queue_result_1` does one of three things. -/
lemma masterStep_result {numHosts now : ℤ} {m m' : Master} {msg : Msg} {job : ℕ}
    (h : m.result msg job now = some m') :
    MasterStep numHosts m (.result msg job now) m' [] := by
  obtain ⟨srv, hsrv, rfl⟩ := Option.map_eq_some_iff.mp h
  rw [jobQueueResult1] at hsrv
  by_cases hm2 : msg.m2 = JobStat.finished.code
  · simp only [if_pos hm2, countDown_jobnodes, Function.update_self] at hsrv ⊢
    split_ifs at hsrv with hin hlast
    · cases hsrv
      have hzero : ((m.srv.countDown msg.src msg.m1).finish msg.m1 now).jobnodes msg.m1 = 0 :=
        (congrFun (countDown_jobnodes ..) _).trans ((Function.update_self ..).trans hlast)
      rw [if_pos hzero]
      exact .lastReport msg job now hm2 hin.1 hin.2 hlast
    · cases hsrv
      rw [countDown_jobnodes, Function.update_self, if_neg hlast]
      exact .report msg job now hm2 hin.1 hin.2 hlast
  · simp only [if_neg hm2] at hsrv ⊢
    cases hsrv
    exact .other msg job now hm2

/-- Every step of the master is one of these. -/
lemma masterStep_spec {numHosts : ℤ} {a : MasterAct} {m m' : Master} {ps : List Packet}
    (h : m.step numHosts a = some (m', ps)) : MasterStep numHosts m a m' ps := by
  cases a with
  | submit req now =>
      obtain ⟨_, hsub, heq⟩ := Option.map_eq_some_iff.mp h
      obtain ⟨⟨srv, reply⟩, hjob, rfl⟩ := Option.map_eq_some_iff.mp hsub
      obtain ⟨pcomm, username, _, rfl, rfl⟩ := jobMonitorSubmit_cases hjob
      cases heq
      exact .submit req now pcomm username
  | cancel jobId =>
      rw [Master.step, Master.cancel] at h
      split_ifs at h with hhosts
      cases h
      exact .cancel jobId hhosts
  | pop now => exact .pop now (popStep_spec h)
  | result msg job now =>
      obtain ⟨_, hres, heq⟩ := Option.map_eq_some_iff.mp h
      cases heq
      exact masterStep_result hres
  | hostStatus msg job =>
      obtain ⟨_, hres, heq⟩ := Option.map_eq_some_iff.mp h
      obtain ⟨srv, hhost, rfl⟩ := Option.map_eq_some_iff.mp hres
      rw [epbsHostStatus] at hhost
      split_ifs at hhost
      cases hhost
      cases heq
      exact .hostStatus msg job

end Epbs
