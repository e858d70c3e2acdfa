/-
The deprecated producer of the job queue, `job_queue_push`, next to the pop thread.

* `pushRequest`, `jobQueuePush`: what it reads from a datagram of any type, and its critical
  section;
* `pushMachine`: its loop, which tests the queue and lets go of the lock before it receives,
  interleaved with pops;
* `Roomy`: between the test and the store only pops come in, so there is still room;
* `PushGuard`: the strings of what is stored fit their fields, and the pop can copy the command;
* `queueReach_of_reach`: every run of it is a run of the queue whose SUBMITs find room;
* `push_refines_fifo`: so it refines the bounded FIFO where `job_monitor_etransfer` overwrites
  waiting jobs; but it is heard once: its port becomes that of its replies.
-/
import Epbs.Wire.Leaks
import Epbs.Wire.Submit

namespace Epbs

open Words

/-! ### The producer -/

/-- `UDP_JOB_QUE_SRV_PORT_NUMBER`. -/
def jobQueSrvPort : ℤ := 4052

/-- `UDP_JOB_QUE_CLI_PORT_NUMBER`. -/
def jobQueCliPort : ℤ := 4054

/-- **The reads of `job_queue_push`** in its receive buffer; the type is not looked at. -/
def pushRequest (recvBuffer : Bytes) : Option SubmitRequest := do
  let _type ← intAt recvBuffer 0
  let src ← intAt recvBuffer 4
  let _dist ← intAt recvBuffer 8
  let pcommLen ← intAt recvBuffer 12
  let numReqNodes ← intAt recvBuffer 16
  let usernameLen ← intAt recvBuffer 20
  let pcomm ← cstrAt recvBuffer 24
  let username ← cstrAt recvBuffer (24 + pcommLen)
  return ⟨src, pcomm, pcommLen, numReqNodes, username, usernameLen⟩

/-- The second critical section of `job_queue_push`: the slot at the head is written and the
head moves.  Not defined if a copy leaves its field. -/
def jobQueuePush (req : SubmitRequest) (now : ℤ) (s : Server) : Option (Server × ℤ) := do
  let pcomm ← sprintf 256 req.commStr req.commStrLen
  let username ← sprintf 32 req.username req.usernameLen
  let job := req.store pcomm username now s.jobHead (s.jobq s.jobHead)
  return ((s.writeSlot s.jobHead job).advanceHead, s.jobHead)

/-- Where the thread stands: before the test for a full queue, or before `udp_recv`; or the
process has exited. -/
inductive PushPc where
  | test | recv | exited
  deriving DecidableEq

/-- A datagram of the thread: the host and the port it goes to, and its bytes. -/
structure PushReply where
  dist : ℤ
  port : ℤ
  bytes : Bytes

/-- The thread and the queue, with the ports of the datagrams that were stored and with the
replies. -/
structure PushState where
  queue : QueueHistory
  pc : PushPc
  portnumber : ℤ
  recvBuffer : RecvBuffer
  sendBuffer : Bytes
  ports : List ℤ
  replies : List PushReply

/-- The steps: the test, a datagram on a port, a pop. -/
inductive PushOp where
  | test
  | recv (port : ℤ) (datagram : Bytes) (now : ℤ)
  | pop

/-- What the blocks from `malloc` hold at first. -/
structure PushBuffers where
  recvBuffer : RecvBuffer
  sendBuffer : {bytes : Bytes // bytes.length = 24}

/-- **`job_queue_push` and the pops, in any order.**  `udp_recv` only takes what comes in on
the port it is given, and exits on an empty datagram.  The port of the replies is not set
back. -/
def pushMachine (localId : ℤ) (b : PushBuffers) (ips : ℤ → Bytes) : Machine PushState PushOp where
  init := ⟨(queueMachine ips).init, .test, jobQueSrvPort, b.recvBuffer, b.sendBuffer.1, [], []⟩
  step
    | .test, s =>
        if s.pc = .test then
          some { s with pc := if queueFull s.queue.srv then .test else .recv }
        else none
    | .recv port datagram now, s =>
        if s.pc = .recv ∧ port = s.portnumber then
          if datagram = [] then some { s with pc := .exited }
          else do
            let recvBuffer := s.recvBuffer.recv datagram
            let req ← pushRequest recvBuffer.1
            let (srv, newJobId) ← jobQueuePush req now s.queue.srv
            let bytes ← putAll s.sendBuffer (submitWrites localId req.src newJobId)
            return {
              queue := ⟨srv, s.queue.accepted ++ [(srv.jobq newJobId).queued], s.queue.popped⟩
              pc := .test
              portnumber := jobQueCliPort
              recvBuffer := recvBuffer
              sendBuffer := bytes
              ports := s.ports ++ [port]
              replies := s.replies ++ [⟨req.src, jobQueCliPort, bytes⟩] }
        else none
    | .pop, s =>
        if s.pc ≠ .exited then
          ((queueMachine ips).step .pop s.queue).map fun q => { s with queue := q }
        else none

/-- The runs on which nothing is written outside its field: the strings of every datagram that
is stored are found in the buffer and fit `pcomm[256]` and `username[32]`, and the command as it
is stored has no `%` and fits the pop's 32 bytes.  An empty datagram is not stored. -/
def PushGuard (s : PushState) : PushOp → Prop
  | .recv _ datagram _ => datagram ≠ [] →
      ∃ req ∈ pushRequest (s.recvBuffer.recv datagram).1, req.CopiesFit ∧
        ∀ pcomm ∈ sprintf 256 req.commStr req.commStrLen, percent ∉ pcomm ∧ pcomm.length < 32
  | .test | .pop => True

instance (s : PushState) : (op : PushOp) → Decidable (PushGuard s op)
  | .recv _ _ _ => inferInstanceAs (Decidable (_ → _))
  | .test | .pop => isTrue trivial

/-! ### What a step does -/

section Steps

variable {localId : ℤ} {b : PushBuffers} {ips : ℤ → Bytes} {s s' : PushState} {op : PushOp}

/-- A push is the SUBMIT of the job monitor, less its warning. -/
lemma jobMonitorSubmit_of_push {req : SubmitRequest} {now newJobId : ℤ} {srv srv' : Server}
    (h : jobQueuePush req now srv = some (srv', newJobId)) :
    jobMonitorSubmit req now srv = some (srv', ⟨newJobId, decide (queueFull srv)⟩) := by
  obtain ⟨pcomm, hp, h⟩ := Option.bind_eq_some_iff.mp h
  obtain ⟨username, hu, h⟩ := Option.bind_eq_some_iff.mp h
  cases h
  simp only [jobMonitorSubmit, hp, hu, Option.bind_eq_bind, Option.bind_some]
  rfl

/-- **The steps of the producer and of the pops.** -/
inductive PushStep (localId : ℤ) (ips : ℤ → Bytes) (s : PushState) : PushOp → PushState → Prop
  | full (hpc : s.pc = .test) (hfull : queueFull s.queue.srv) : PushStep localId ips s .test s
  | room (hpc : s.pc = .test) (hroom : ¬queueFull s.queue.srv) :
      PushStep localId ips s .test { s with pc := .recv }
  | empty (now : ℤ) (hpc : s.pc = .recv) :
      PushStep localId ips s (.recv s.portnumber [] now) { s with pc := .exited }
  | store {datagram : Bytes} {now newJobId : ℤ} {req : SubmitRequest} {srv : Server}
      {bytes : Bytes} (hpc : s.pc = .recv) (hne : datagram ≠ [])
      (hreq : pushRequest (s.recvBuffer.recv datagram).1 = some req)
      (hpush : jobQueuePush req now s.queue.srv = some (srv, newJobId)) :
      PushStep localId ips s (.recv s.portnumber datagram now)
        { queue := ⟨srv, s.queue.accepted ++ [(srv.jobq newJobId).queued], s.queue.popped⟩
          pc := .test
          portnumber := jobQueCliPort
          recvBuffer := s.recvBuffer.recv datagram
          sendBuffer := bytes
          ports := s.ports ++ [s.portnumber]
          replies := s.replies ++ [⟨req.src, jobQueCliPort, bytes⟩] }
  | pop {q : QueueHistory} (hpc : s.pc ≠ .exited)
      (hpop : (queueMachine ips).step .pop s.queue = some q) :
      PushStep localId ips s .pop { s with queue := q }

/-- Every step is one of these. -/
lemma pushStep_spec (h : (pushMachine localId b ips).step op s = some s') :
    PushStep localId ips s op s' := by
  cases op with
  | test =>
      simp only [pushMachine] at h
      split_ifs at h with hpc hfull
      · cases h
        have hsame : { s with pc := .test } = s := by rw [← hpc]
        rw [hsame]
        exact .full hpc hfull
      · cases h
        exact .room hpc hfull
  | recv port datagram now =>
      simp only [pushMachine] at h
      split_ifs at h with hpc hempty
      · cases h
        rw [hempty, hpc.2]
        exact .empty now hpc.1
      · obtain ⟨req, hreq, h⟩ := Option.bind_eq_some_iff.mp h
        obtain ⟨⟨srv, newJobId⟩, hpush, h⟩ := Option.bind_eq_some_iff.mp h
        obtain ⟨bytes, -, h⟩ := Option.bind_eq_some_iff.mp h
        cases h
        rw [hpc.2]
        exact .store hpc.1 hempty hreq hpush
  | pop =>
      simp only [pushMachine] at h
      split_ifs at h with hpc
      obtain ⟨q, hpop, rfl⟩ := Option.map_eq_some_iff.mp h
      exact .pop hpc hpop

/-! ### Room between the test and the store -/

/-- The indices are in the table, and behind the test there is room. -/
structure Roomy (s : PushState) : Prop where
  head : inTable maxJobQueue s.queue.srv.jobHead
  tail : inTable maxJobQueue s.queue.srv.jobTail
  room : s.pc = .recv → ¬queueFull s.queue.srv

lemma roomy_init (localId : ℤ) (b : PushBuffers) (ips : ℤ → Bytes) :
    Roomy (pushMachine localId b ips).init where
  head := show inTable maxJobQueue 0 by decide
  tail := show inTable maxJobQueue 0 by decide
  room hpc := by cases hpc

/-- A pop makes room. -/
lemma not_queueFull_of_take {srv srv' : Server} {taken : Option PoppedJob}
    (hhead : inTable maxJobQueue srv.jobHead) (htail : inTable maxJobQueue srv.jobTail)
    (htake : jobQueueTake srv = some (taken, srv')) (hroom : ¬queueFull srv) :
    ¬queueFull srv' := by
  rcases jobQueueTake_cases htake with ⟨-, -, rfl⟩ | ⟨hne, pcomm, -, -, rfl⟩
  · exact hroom
  · -- the cell behind the new tail is the head only if the queue was empty
    intro hfull
    refine hne ?_
    have hsame : (srv.jobHead + 1) % maxJobQueue = (srv.jobTail + 1) % maxJobQueue := hfull
    have hhead' := Int.emod_eq_of_lt hhead.1 hhead.2
    have htail' := Int.emod_eq_of_lt htail.1 htail.2
    have hcancel : srv.jobHead % maxJobQueue = srv.jobTail % maxJobQueue :=
      Int.emod_add_cancel_right 1 |>.mp hsame
    rw [← hhead', ← htail', hcancel]

/-- **One step** leaves the room that the test found. -/
lemma Roomy.step (h : Roomy s) (hstep : PushStep localId ips s op s') : Roomy s' := by
  cases hstep with
  | full hpc hfull => exact h
  | room hpc hroom => exact ⟨h.head, h.tail, fun _ => hroom⟩
  | empty now hpc => exact ⟨h.head, h.tail, fun hc => by cases hc⟩
  | store hpc hne hreq hpush =>
      obtain ⟨_, _, _, -, rfl⟩ := jobMonitorSubmit_cases (jobMonitorSubmit_of_push hpush)
      exact ⟨inTable_succ _, h.tail, fun hc => by cases hc⟩
  | pop hpc hpop =>
      obtain ⟨⟨taken, srv⟩, htake, hq⟩ := Option.bind_eq_some_iff.mp hpop
      cases hq
      refine ⟨?_, ?_, fun hrecv =>
        not_queueFull_of_take h.head h.tail htake (h.room hrecv)⟩
      · rcases jobQueueTake_cases htake with ⟨-, -, rfl⟩ | ⟨-, _, -, -, rfl⟩
        · exact h.head
        · exact h.head
      · rcases jobQueueTake_cases htake with ⟨-, -, rfl⟩ | ⟨-, _, -, -, rfl⟩
        · exact h.tail
        · exact inTable_succ _

lemma roomy_of_reach {G : PushState → PushOp → Prop}
    (h : (pushMachine localId b ips).Reach G s) : Roomy s :=
  h.invariant (roomy_init localId b ips) fun _ _ _ _ hI _ hs => hI.step (pushStep_spec hs)

/-! ### The queue behind it -/

/-- **A datagram that is stored** is a SUBMIT that finds room. -/
lemma queueStep_store (ips : ℤ → Bytes) (h : Roomy s) {datagram : Bytes} {now newJobId : ℤ}
    {req : SubmitRequest} {srv : Server} (hpc : s.pc = .recv) (hne : datagram ≠ [])
    (hreq : pushRequest (s.recvBuffer.recv datagram).1 = some req)
    (hpush : jobQueuePush req now s.queue.srv = some (srv, newJobId))
    (hg : PushGuard s (.recv s.portnumber datagram now)) :
    QueueGuard s.queue (.submit req now) ∧
      (queueMachine ips).step (.submit req now) s.queue = some
        ⟨srv, s.queue.accepted ++ [(srv.jobq newJobId).queued], s.queue.popped⟩ := by
  have hroom := h.room hpc
  obtain ⟨req', hreq', hcopies, hplain⟩ := hg hne
  obtain rfl : req = req' := Option.some.inj (hreq.symm.trans hreq')
  refine ⟨⟨hroom, hcopies, hplain⟩, ?_⟩
  show (jobMonitorSubmit req now s.queue.srv).bind _ = _
  rw [jobMonitorSubmit_of_push hpush, Option.bind_some]
  simp only [if_neg hroom]
  rfl

/-- The producer and the pops are a run of the queue in which every SUBMIT finds room. -/
lemma queueReach_of_reach (h : (pushMachine localId b ips).Reach PushGuard s) :
    (queueMachine ips).Reach QueueGuard s.queue := by
  refine Machine.Reach.simulate (N := queueMachine ips) (H := QueueGuard)
    (f := PushState.queue) rfl ?_ h
  intro s op s' hreach _ hg hs
  have hroomy := roomy_of_reach hreach
  cases pushStep_spec hs with
  | full | room | empty => exact .inl rfl
  | store hpc hne hreq hpush =>
      obtain ⟨hguard, hstep⟩ := queueStep_store ips hroomy hpc hne hreq hpush hg
      exact .inr ⟨_, hguard, hstep⟩
  | pop hpc hpop => exact .inr ⟨.pop, trivial, hpop⟩

/-- The ports of what was stored: the first datagram came in on the port of the server, and
all others on that of the replies. -/
structure HeardOnce (s : PushState) : Prop where
  stored : s.ports.length = s.queue.accepted.length
  port : s.portnumber = if s.ports = [] then jobQueSrvPort else jobQueCliPort
  replies : ∀ port ∈ s.ports.tail, port = jobQueCliPort

lemma HeardOnce.step (h : HeardOnce s) (hstep : PushStep localId ips s op s') : HeardOnce s' := by
  cases hstep with
  | full | room | empty => exact ⟨h.stored, h.port, h.replies⟩
  | store hpc hne hreq hpush =>
      refine ⟨?_, ?_, ?_⟩
      · rw [List.length_append, List.length_append, h.stored]
        rfl
      · exact (if_neg (List.append_ne_nil_of_right_ne_nil _ (List.cons_ne_nil _ _))).symm
      · have hport := h.port
        show ∀ port ∈ (s.ports ++ [s.portnumber]).tail, port = jobQueCliPort
        cases hports : s.ports with
        | nil => exact fun port hp => absurd hp List.not_mem_nil
        | cons first rest =>
            rw [hports, if_neg (List.cons_ne_nil _ _)] at hport
            intro port hp
            rcases List.mem_append.mp hp with hold | hnew
            · exact h.replies port (by rw [hports]; exact hold)
            · exact (List.mem_singleton.mp hnew).trans hport
  | pop hpc hpop =>
      obtain ⟨⟨taken, srv⟩, -, hq⟩ := Option.bind_eq_some_iff.mp hpop
      cases hq
      exact ⟨h.stored, h.port, h.replies⟩

lemma heardOnce_of_reach {G : PushState → PushOp → Prop}
    (h : (pushMachine localId b ips).Reach G s) : HeardOnce s :=
  h.invariant ⟨rfl, rfl, fun _ hp => absurd hp List.not_mem_nil⟩
    fun _ _ _ _ hI _ hs => hI.step (pushStep_spec hs)

end Steps

/-- What the queue does in a step, for the FIFO `f` before it: a datagram finds room and is
pushed, a pop pops. -/
def IsFifoStep (f : Fifo QueuedJob (maxJobQueue - 1)) (s s' : PushState) : PushOp → Prop
  | .test => Represents s'.queue f
  | .recv _ datagram _ =>
      if datagram = [] then Represents s'.queue f
      else f.items.length < maxJobQueue - 1 ∧
        Represents s'.queue (f.push (s'.queue.srv.jobq s.queue.srv.jobHead).queued)
  | .pop => Represents s'.queue f.pop

/-- **The deprecated producer never loses a job.** Along every run in which both strings of every
datagram that is stored fit their fields and the stored commands can be copied by the pop, the
queue stands for a FIFO of capacity `MAX_JOB_QUEUE - 1` that accepted every datagram that was
stored: a datagram finds room and is pushed, however many pops came in since the test for a full
queue, and a pop takes the front.  But no more than one of the datagrams came in on the port that
the clients send to. -/
theorem push_refines_fifo {localId : ℤ} {b : PushBuffers} {ips : ℤ → Bytes} {s s' : PushState}
    {op : PushOp} (h : (pushMachine localId b ips).Reach PushGuard s) (hg : PushGuard s op)
    (hs : (pushMachine localId b ips).step op s = some s') :
    (∃ f : Fifo QueuedJob (maxJobQueue - 1), Represents s.queue f ∧ IsFifoStep f s s' op) ∧
      s.ports.length = s.queue.accepted.length ∧
      ∀ port ∈ s.ports.tail, port = jobQueCliPort := by
  have hq := queueInv_of_reach (queueReach_of_reach h)
  have hroomy := roomy_of_reach h
  have hheard := heardOnce_of_reach h
  refine ⟨⟨hq.fifo, hq.represents, ?_⟩, hheard.stored, hheard.replies⟩
  cases pushStep_spec hs with
  | full | room => exact hq.represents
  | empty now hpc =>
      rw [IsFifoStep, if_pos rfl]
      exact hq.represents
  | @store datagram now newJobId req srv bytes hpc hne hreq hpush =>
      obtain ⟨hguard, hstep⟩ := queueStep_store ips hroomy hpc hne hreq hpush hg
      rw [IsFifoStep, if_neg hne]
      exact ⟨hq.length_lt_of_not_full (hroomy.room hpc), (hq.submit hguard hstep).2⟩
  | pop hpc hpop => exact (hq.pop hpop).2

/-- The first datagram is stored, and it is popped between the next test and the second
datagram, which comes in on the port of the replies. -/
theorem push_refines_fifo_second : ∃ s s',
    (pushMachine 1 ⟨zeroBuffer, zeros 24⟩ fun _ => []).run
        [.test, .recv 4052 submitBytes 0, .test, .pop]
        (pushMachine 1 ⟨zeroBuffer, zeros 24⟩ fun _ => []).init = some s ∧
      (pushMachine 1 ⟨zeroBuffer, zeros 24⟩ fun _ => []).step (.recv 4054 submitBytes 1) s
        = some s' ∧ s.queue.accepted.length = 1 ∧ s'.ports = [4052, 4054] ∧
      ∃ f : Fifo QueuedJob (maxJobQueue - 1), Represents s.queue f ∧
        Represents s'.queue (f.push (s'.queue.srv.jobq s.queue.srv.jobHead).queued) := by
  have hrun : (((pushMachine 1 ⟨zeroBuffer, zeros 24⟩ fun _ => []).restrict fun s op =>
      decide (PushGuard s op)).run [.test, .recv 4052 submitBytes 0, .test, .pop]
        (pushMachine 1 ⟨zeroBuffer, zeros 24⟩ fun _ => []).init).any (fun s =>
          decide (PushGuard s (.recv 4054 submitBytes 1) ∧ s.ports = [4052]) &&
          ((pushMachine 1 ⟨zeroBuffer, zeros 24⟩ fun _ => []).step (.recv 4054 submitBytes 1)
            s).any fun s' => decide (s'.ports = [4052, 4054])) = true := by decide +kernel
  obtain ⟨s, htested, hp⟩ := (Option.any_eq_true _ _).mp hrun
  obtain ⟨hfirst, hstep⟩ := Bool.and_eq_true_iff.mp hp
  obtain ⟨hguard, hports⟩ := of_decide_eq_true hfirst
  obtain ⟨s', hs, hports'⟩ := (Option.any_eq_true _ _).mp hstep
  obtain ⟨hguarded, hrun'⟩ := Machine.guardedRun_of_restrict (G := PushGuard)
    (fun s op htest => of_decide_eq_true htest) htested
  obtain ⟨⟨f, hf, hpush⟩, hstored, -⟩ := push_refines_fifo
    (Machine.Reach.init.run hguarded hrun') hguard hs
  have hne : submitBytes ≠ [] := by decide
  rw [IsFifoStep, if_neg hne] at hpush
  rw [hports] at hstored
  exact ⟨s, s', hrun', hs, hstored.symm, of_decide_eq_true hports', f, hf, hpush.2⟩

end Epbs
