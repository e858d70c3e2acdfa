/-
A compute node: the loop of `deal_interactive_job_request`, the thread it
creates for each job (`execl_thread`), the processes that thread forks, and the
loop of `cancel_job_request`.

* `NodePc`, `ExeclThread`: where the loop stands, and the thread of the job in
  hand;
* `Node.receive`, `Node.cancel`: the two handlers of datagrams;
* `Node.step`: every other step of the node; `NodeStep` and `nodeStep_spec`
  list them;
* `Node.executing`, `Node.unanswered`: the thread that has not been joined yet,
  and the job whose report has not been sent yet.

Threads are numbered in the order they are created, so a number names one
thread for good.  `returnSent` and `hostSent` are the history of the reports
sent; the code never reads them, and neither are the numbers of jobs read.
-/
import Epbs.Server.Messages

namespace Epbs

/-! ### The state of a node -/

/-- A submit message in hand: the job's number, its id and its command. -/
structure NodeJob where
  job : ℕ
  jobId : ℤ
  pcomm : Bytes
  deriving DecidableEq

/-- Where `execl_thread` stands: at its start, in the built-in `sleep(100)`,
before `fork`, or past its end. -/
inductive ThreadPc where
  | start | sleeping | forking | ended
  deriving DecidableEq

/-- A thread running `execl_thread`, and whether a cancel is pending on it. -/
structure ExeclThread where
  tid : ℕ
  pc : ThreadPc
  cancelled : Bool
  deriving DecidableEq

/-- Where `deal_interactive_job_request` stands: in `udp_recv`; past
`pthread_create`, before or after `job_thread_id` is stored; past
`pthread_join`; between its two reports; or gone, when `pthread_create` failed. -/
inductive NodePc where
  | recv
  | created (j : NodeJob) (th : ExeclThread)
  | recorded (j : NodeJob) (th : ExeclThread)
  | joined (j : NodeJob)
  | returned (j : NodeJob)
  | exited (j : NodeJob)
  deriving DecidableEq

/-- A node: its loop, `job_thread_id`, the number of threads created so far,
the jobs of the processes that run on it, and the reports it sent. -/
structure Node where
  pc : NodePc
  jobThreadId : Option ℕ
  threads : ℕ
  procs : List ℕ
  returnSent : List ℕ
  hostSent : List ℕ
  deriving DecidableEq

namespace Node

/-- A node at its start. -/
def init : Node where
  pc := .recv
  jobThreadId := none
  threads := 0
  procs := []
  returnSent := []
  hostSent := []

/-- The thread that was created and not joined, with its job. -/
def executing (n : Node) : Option (NodeJob × ExeclThread) :=
  match n.pc with
  | .created j th | .recorded j th => some (j, th)
  | _ => none

/-- The job taken on whose JOB_RETURN was not sent. -/
def unanswered (n : Node) : Option NodeJob :=
  match n.pc with
  | .created j _ | .recorded j _ | .joined j | .exited j => some j
  | .recv | .returned _ => none

/-- The process of the node has not exited. -/
def alive (n : Node) : Bool :=
  match n.pc with
  | .exited _ => false
  | _ => true

/-- The processes of the node are replaced. -/
def setProcs (n : Node) (procs : List ℕ) : Node := { n with procs := procs }

/-! ### Datagrams -/

/-- The job of a submit message: the command ends at its first NUL. -/
def jobOfMsg (msg : Msg) (job : ℕ) : NodeJob :=
  ⟨job, msg.m1, (msg.payload.take msg.m2.toNat).takeWhile (· ≠ 0)⟩

/-- **A datagram on the job port.**  A submit message starts a thread; if
`pthread_create` fails the process exits.  Other types are dropped. -/
def receive (msg : Msg) (job : ℕ) (createOk : Bool) (n : Node) : Option Node :=
  match n.pc with
  | .recv =>
      if msg.type = msgTypeJobSubmit then
        if createOk then
          some { n with
            pc := .created (jobOfMsg msg job) ⟨n.threads, .start, false⟩
            threads := n.threads + 1 }
        else some { n with pc := .exited (jobOfMsg msg job) }
      else some n
  | _ => none

/-- The thread in hand is replaced. -/
def setThread (n : Node) (th : ExeclThread) : Node :=
  match n.pc with
  | .created j _ => { n with pc := .created j th }
  | .recorded j _ => { n with pc := .recorded j th }
  | _ => n

/-- **A datagram on the cancel port** (`cancel_job_request`):
`pthread_cancel(job_thread_id)`, whatever job the message names. -/
def cancel (n : Node) : Option Node :=
  if n.alive then
    match n.executing with
    | some (_, th) =>
        if n.jobThreadId = some th.tid then some (n.setThread { th with cancelled := true })
        else some n
    | none => some n
  else none

/-! ### The other steps -/

/-- The steps of the loop, of the job's thread and of its processes. -/
inductive Act where
  | record
  | begin
  | wake
  | fork (forkOk : Bool)
  | unwind
  | procExit (job : ℕ)
  | join
  | sendReturn
  | sendHost

/-- The command `sleep`. -/
def sleepCommand : Bytes := [115, 108, 101, 101, 112]

/-- **A step of `execl_thread`** on its state: the built-in `sleep` is followed
by the `fork` like any other command, and the parent's side ends right after it;
a pending cancel can end the thread anywhere before. -/
def threadStep (pcomm : Bytes) (th : ExeclThread) : Act → Option ExeclThread
  | .begin =>
      if th.pc = .start then
        some { th with pc := if pcomm = sleepCommand then .sleeping else .forking }
      else none
  | .wake => if th.pc = .sleeping then some { th with pc := .forking } else none
  | .fork _ => if th.pc = .forking then some { th with pc := .ended } else none
  | .unwind => if th.cancelled ∧ th.pc ≠ .ended then some { th with pc := .ended } else none
  | _ => none

/-- The JOB_RETURN report of a node. -/
def jobReturn (localId : ℤ) (j : NodeJob) : Packet :=
  udpSend serverMachineId
    ⟨msgTypeJobReturn, localId, serverMachineId, j.jobId, JobStat.finished.code, []⟩
    jobReltPort j.job

/-- The host report of a node. -/
def hostReport (localId : ℤ) (j : NodeJob) : Packet :=
  udpSend serverMachineId
    ⟨msgTypeHost, localId, serverMachineId, localId, HostStat.free.code, []⟩
    hostStatPort j.job

/-- **A step of the node** that reads no datagram, with what it sends. -/
def step (localId : ℤ) (a : Act) (n : Node) : Option (Node × List Packet) :=
  match a with
  | .record =>
      match n.pc with
      | .created j th => some ({ n with pc := .recorded j th, jobThreadId := some th.tid }, [])
      | _ => none
  | .begin | .wake | .unwind =>
      n.executing.bind fun (j, th) =>
        (threadStep j.pcomm th a).map fun th => (n.setThread th, [])
  | .fork forkOk =>
      n.executing.bind fun (j, th) =>
        (threadStep j.pcomm th a).map fun th =>
          ((n.setThread th).setProcs (if forkOk then j.job :: n.procs else n.procs), [])
  | .procExit job =>
      if job ∈ n.procs then some (n.setProcs (n.procs.erase job), []) else none
  | .join =>
      match n.pc with
      | .recorded j th => if th.pc = .ended then some ({ n with pc := .joined j }, []) else none
      | _ => none
  | .sendReturn =>
      match n.pc with
      | .joined j =>
          some ({ n with pc := .returned j, returnSent := j.job :: n.returnSent },
            [jobReturn localId j])
      | _ => none
  | .sendHost =>
      match n.pc with
      | .returned j =>
          some ({ n with pc := .recv, hostSent := j.job :: n.hostSent }, [hostReport localId j])
      | _ => none

/-! ### What the steps can do -/

/-- The steps of the node that read no datagram: those of its job loop, of the thread that it
created, and of the processes that the thread forked. -/
inductive NodeStep (localId : ℤ) (n : Node) : Act → Node → List Packet → Prop
  | record {j : NodeJob} {th : ExeclThread} (hpc : n.pc = .created j th) :
      NodeStep localId n .record { n with pc := .recorded j th, jobThreadId := some th.tid } []
  | thread {j : NodeJob} {th th' : ExeclThread} {a : Act} (hexec : n.executing = some (j, th))
      (hth : threadStep j.pcomm th a = some th') (hfork : ∀ forkOk, a ≠ .fork forkOk) :
      NodeStep localId n a (n.setThread th') []
  | fork {j : NodeJob} {th th' : ExeclThread} (forkOk : Bool)
      (hexec : n.executing = some (j, th))
      (hth : threadStep j.pcomm th (.fork forkOk) = some th') :
      NodeStep localId n (.fork forkOk)
        ((n.setThread th').setProcs (if forkOk then j.job :: n.procs else n.procs)) []
  | procExit (job : ℕ) (hmem : job ∈ n.procs) :
      NodeStep localId n (.procExit job) (n.setProcs (n.procs.erase job)) []
  | join {j : NodeJob} {th : ExeclThread} (hpc : n.pc = .recorded j th)
      (hended : th.pc = .ended) :
      NodeStep localId n .join { n with pc := .joined j } []
  | sendReturn {j : NodeJob} (hpc : n.pc = .joined j) :
      NodeStep localId n .sendReturn
        { n with pc := .returned j, returnSent := j.job :: n.returnSent } [jobReturn localId j]
  | sendHost {j : NodeJob} (hpc : n.pc = .returned j) :
      NodeStep localId n .sendHost
        { n with pc := .recv, hostSent := j.job :: n.hostSent } [hostReport localId j]

/-- A step of the thread in hand is a thread step. -/
lemma nodeStep_thread {localId : ℤ} {n n' : Node} {a : Act} {ps : List Packet}
    (hfork : ∀ forkOk, a ≠ .fork forkOk)
    (h : (n.executing.bind fun (j, th) =>
      (threadStep j.pcomm th a).map fun th => (n.setThread th, [])) = some (n', ps)) :
    NodeStep localId n a n' ps := by
  obtain ⟨⟨j, th⟩, hexec, h⟩ := Option.bind_eq_some_iff.mp h
  obtain ⟨th', hth, heq⟩ := Option.map_eq_some_iff.mp h
  cases heq
  exact .thread hexec hth hfork

/-- Every step of the node is one of these. Those of the thread come first; the others are the
children and what the job loop of the node does after the thread was created. -/
lemma nodeStep_spec {localId : ℤ} {n n' : Node} {a : Act} {ps : List Packet}
    (h : n.step localId a = some (n', ps)) : NodeStep localId n a n' ps := by
  cases a with
  | begin => exact nodeStep_thread nofun h
  | wake => exact nodeStep_thread nofun h
  | unwind => exact nodeStep_thread nofun h
  | fork forkOk =>
      obtain ⟨⟨j, th⟩, hexec, h⟩ := Option.bind_eq_some_iff.mp h
      obtain ⟨th', hth, heq⟩ := Option.map_eq_some_iff.mp h
      cases heq
      exact .fork forkOk hexec hth
  | procExit job =>
      simp only [step] at h
      split_ifs at h with hmem
      cases h
      exact .procExit job hmem
  | record =>
      cases hpc : n.pc <;> simp only [step, hpc, reduceCtorEq] at h
      cases h
      exact .record hpc
  | join =>
      cases hpc : n.pc <;> simp only [step, hpc, reduceCtorEq] at h
      split_ifs at h with hended
      cases h
      exact .join hpc hended
  | sendReturn =>
      cases hpc : n.pc <;> simp only [step, hpc, reduceCtorEq] at h
      cases h
      exact .sendReturn hpc
  | sendHost =>
      cases hpc : n.pc <;> simp only [step, hpc, reduceCtorEq] at h
      cases h
      exact .sendHost hpc

/-- A cancel at most marks the thread in hand. -/
lemma cancel_cases {n n' : Node} (h : n.cancel = some n') :
    n' = n ∨ ∃ j th, n.executing = some (j, th) ∧ n.jobThreadId = some th.tid ∧
      n' = n.setThread { th with cancelled := true } := by
  rw [cancel] at h
  split_ifs at h
  cases hexec : n.executing with
  | none =>
      simp only [hexec] at h
      cases h
      exact Or.inl rfl
  | some e =>
      simp only [hexec] at h
      split_ifs at h with hrec
      · cases h
        exact Or.inr ⟨e.1, e.2, rfl, hrec, rfl⟩
      · cases h
        exact Or.inl rfl

/-- A datagram on the job port is taken in `udp_recv` only. -/
lemma receive_cases {n n' : Node} {msg : Msg} {job : ℕ} {createOk : Bool}
    (h : n.receive msg job createOk = some n') :
    n.pc = .recv ∧ ((msg.type ≠ msgTypeJobSubmit ∧ n' = n) ∨
      msg.type = msgTypeJobSubmit ∧
        (n' = { n with
            pc := .created (jobOfMsg msg job) ⟨n.threads, .start, false⟩
            threads := n.threads + 1 } ∨
          n' = { n with pc := .exited (jobOfMsg msg job) })) := by
  rw [receive] at h
  cases hpc : n.pc <;> simp only [hpc, reduceCtorEq] at h
  refine ⟨rfl, ?_⟩
  split_ifs at h with htype
  · cases h
    exact Or.inr ⟨htype, Or.inl rfl⟩
  · cases h
    exact Or.inr ⟨htype, Or.inr rfl⟩
  · cases h
    exact Or.inl ⟨htype, rfl⟩

/-- Replacing the thread in hand changes nothing but the thread. -/
lemma executing_setThread {n : Node} {j : NodeJob} {th : ExeclThread} (th' : ExeclThread)
    (h : n.executing = some (j, th)) : (n.setThread th').executing = some (j, th') := by
  cases hpc : n.pc <;> simp_all [executing, setThread]

@[simp] lemma unanswered_setThread (n : Node) (th : ExeclThread) :
    (n.setThread th).unanswered = n.unanswered := by
  cases hpc : n.pc <;> simp [unanswered, setThread, hpc]

@[simp] lemma unanswered_setProcs (n : Node) (procs : List ℕ) :
    (n.setProcs procs).unanswered = n.unanswered := rfl

@[simp] lemma executing_setProcs (n : Node) (procs : List ℕ) :
    (n.setProcs procs).executing = n.executing := rfl

@[simp] lemma procs_setProcs (n : Node) (procs : List ℕ) :
    (n.setProcs procs).procs = procs := rfl

@[simp] lemma procs_setThread (n : Node) (th : ExeclThread) :
    (n.setThread th).procs = n.procs := by
  cases hpc : n.pc <;> simp [setThread, hpc]

end Node

end Epbs
