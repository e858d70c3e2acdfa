/-
The threads that use `jobq_lock`, lock by lock: `job_monitor_etransfer` on a request,
`job_queue_pop`, and `job_queue_result_1` on a report.

* `MonitorPoint`, `PopPoint`, `ResultPoint`: where the threads stand between two accesses to
  the shared tables;
* `monitorCode`, `popCode`, `resultCode`: their steps, and which of them lock or unlock;
* `jobqLock`: every interleaving of the three threads;
* `FindsRoom`: no SUBMIT is handled while the queue is full;
* `lock_discipline`: in every run with that, each thread keeps the discipline of the lock,
  and at most one is in a critical section;
* `full_submit_breaks`: a SUBMIT that finds the queue full breaks it.
-/
import Epbs.Machine.Locks
import Epbs.Server.Master
import Epbs.Wire.Requests

namespace Epbs

open Locks

/-! ### `job_monitor_etransfer` -/

/-- **The points of the job monitor**: with no request, and in the branches.  A SUBMIT locks
twice, to test for a full queue and to store the job. -/
inductive MonitorPoint where
  | idle
  | cancelLock (jobId : ℤ)
  | cancelScan (jobId nodeId : ℤ)
  | cancelUnlock
  | testLock (req : SubmitRequest)
  | test (req : SubmitRequest)
  | fullUnlock (req : SubmitRequest)
  | testUnlock (req : SubmitRequest)
  | pushLock (req : SubmitRequest)
  | store (req : SubmitRequest)
  | advance
  | pushUnlock
  | queryLock (jobId : ℤ)
  | queryScan (jobId : ℤ) (i : ℕ)
  | queryUnlock

/-- **The steps of the job monitor**, with the request it reads and the clock. -/
def monitorNext (numHosts : ℤ) :
    MonitorPoint → JobRequest × ℤ → Server → Option (Server × MonitorPoint)
  | .idle, (.cancel jobId, _), s => some (s, .cancelLock jobId)
  | .idle, (.submit req, _), s => some (s, .testLock req)
  | .idle, (.query _ jobId, _), s => some (s, if -2 ≤ jobId then .queryLock jobId else .idle)
  | .idle, (.other, _), s => some (s, .idle)
  | .cancelLock jobId, _, s => some (s, .cancelScan jobId 1)
  | .cancelScan jobId nodeId, _, s =>
      -- a node with the job gets a message, which changes no table
      some (s, if nodeId ≤ numHosts then .cancelScan jobId (nodeId + 1) else .cancelUnlock)
  | .cancelUnlock, _, s => some (s, .idle)
  | .testLock req, _, s => some (s, .test req)
  | .test req, _, s => some (s, if queueFull s then .fullUnlock req else .testUnlock req)
  | .fullUnlock req, _, s => some (s, .testUnlock req)
  | .testUnlock req, _, s => some (s, .pushLock req)
  | .pushLock req, _, s => some (s, .store req)
  | .store req, (_, now), s => do
      let pcomm ← sprintf 256 req.commStr req.commStrLen
      let username ← sprintf 32 req.username req.usernameLen
      return (s.writeSlot s.jobHead
        (req.store pcomm username now s.jobHead (s.jobq s.jobHead)), .advance)
  | .advance, _, s => some (s.advanceHead, .pushUnlock)
  | .pushUnlock, _, s => some (s, .idle)
  | .queryLock jobId, _, s => some (s, .queryScan jobId 0)
  | .queryScan jobId i, _, s =>
      -- only the search for one job leaves the loop early
      some (s, if i < maxJobQueue ∧ ¬(0 ≤ jobId ∧ (s.jobq i).jobId = jobId) then
        .queryScan jobId (i + 1) else .queryUnlock)
  | .queryUnlock, _, s => some (s, .idle)

/-- Stored and then advanced, a job is what a SUBMIT leaves. -/
lemma store_advance (numHosts : ℤ) (req : SubmitRequest) (r : JobRequest) (now : ℤ) (s : Server) :
    (monitorNext numHosts (.store req) (r, now) s).map (fun x => x.1.advanceHead) =
      (jobMonitorSubmit req now s).map (·.1) := by
  simp only [monitorNext, jobMonitorSubmit]
  cases sprintf 256 req.commStr req.commStrLen with
  | none => rfl
  | some pcomm => cases sprintf 32 req.username req.usernameLen <;> rfl

/-- The calls of `pthread_mutex_lock` and `pthread_mutex_unlock`. -/
def MonitorPoint.call : MonitorPoint → Call
  | .cancelLock _ | .testLock _ | .pushLock _ | .queryLock _ => .lock
  | .cancelUnlock | .fullUnlock _ | .testUnlock _ | .pushUnlock | .queryUnlock => .unlock
  | .idle | .cancelScan .. | .test _ | .store _ | .advance | .queryScan .. => .other

/-- Where the job monitor holds the lock; it is not to come to the unlock of a full queue. -/
def MonitorPoint.held : MonitorPoint → Option Bool
  | .idle | .cancelLock _ | .testLock _ | .pushLock _ | .queryLock _ => some false
  | .cancelScan .. | .cancelUnlock | .test _ | .testUnlock _ | .store _ | .advance
  | .pushUnlock | .queryScan .. | .queryUnlock => some true
  | .fullUnlock _ => none

/-- **The code of the job monitor.** -/
def monitorCode (numHosts : ℤ) : Code Server where
  Point := MonitorPoint
  Input := JobRequest × ℤ
  start := .idle
  atEnd p := p = .idle
  call := MonitorPoint.call
  next := monitorNext numHosts

/-- A SUBMIT finds room in the queue. -/
def MonitorPoint.FindsRoom : MonitorPoint → Server → Prop
  | .test _, s => ¬queueFull s
  | _, _ => True

/-! ### `job_queue_pop` -/

/-- **The points of the pop thread**: before its first loop, before it locks, in the critical
section, in the wait for enough nodes and in the dispatch loops. -/
inductive PopPoint where
  | start
  | idle
  | test
  | emptyUnlock
  | take
  | unlock (j : PoppedJob)
  | choose (j : PoppedJob)
  | wait (j : PoppedJob) (count i : ℤ)
  | dispatch (j : PoppedJob) (i k : ℤ)

/-- The job at the tail is taken: its command is copied, the tail moves, the slot is marked
RUNNING. -/
def takeJob (s : Server) : Option (Server × PoppedJob) := do
  let job := s.jobq s.jobTail
  let pcomm ← sprintf 32 job.pcomm job.pcomm.length
  return ((s.writeSlot s.jobTail job.start).advanceTail,
    ⟨s.jobTail, job.jobId, pcomm, job.numReqNodes⟩)

/-- It is what a pop takes from a queue that is not empty. -/
lemma jobQueueTake_eq (s : Server) :
    jobQueueTake s =
      if s.jobHead = s.jobTail then some (none, s)
      else (takeJob s).map fun r => (some r.2, r.1) := by
  rw [jobQueueTake, takeJob]
  split_ifs with hempty
  · rfl
  · simp only [Option.bind_eq_bind, Option.map_bind]
    rfl

/-- **The steps of the pop thread**, with the clock. -/
def popNext (numHosts : ℤ) : PopPoint → ℤ → Server → Option (Server × PopPoint)
  | .start, _, s => some (s.freeAll, .idle)
  | .idle, _, s => some (s, .test)
  | .test, _, s => some (s, if s.jobHead = s.jobTail then .emptyUnlock else .take)
  | .emptyUnlock, _, s => some (s, .idle)
  | .take, _, s => (takeJob s).map fun r => (r.1, .unlock r.2)
  | .unlock j, _, s => some (s, .choose j)
  | .choose j, now, s =>
      if j.numReqNodes ≤ numHosts then some (s, .wait j 0 1)
      else some (s.stamp j.slot now, .idle)
  | .wait j count i, now, s =>
      if i ≤ numHosts then some (s, .wait j (countNode s.pcstat count i) (i + 1))
      else if count < j.numReqNodes then some (s, .wait j count 1)
      else some (s.stamp j.slot now, .dispatch j 1 1)
  | .dispatch j i k, _, s =>
      if i ≤ j.numReqNodes then
        if k ≤ numHosts then
          if s.pcstat k = .free then
            if inTable maxNumHosts k then some (s.assign k j.jobId, .dispatch j (i + 1) 1)
            else none
          else some (s, .dispatch j i (k + 1))
        else some (s, .dispatch j (i + 1) 1)
      else if inTable maxJobQueue j.jobId then
        some (s.setJobnodes j.jobId j.numReqNodes, .idle)
      else none

/-- The calls of `pthread_mutex_lock` and `pthread_mutex_unlock`. -/
def PopPoint.call : PopPoint → Call
  | .idle => .lock
  | .emptyUnlock | .unlock _ => .unlock
  | .start | .test | .take | .choose _ | .wait .. | .dispatch .. => .other

/-- Where the pop thread holds the lock. -/
def PopPoint.held : PopPoint → Option Bool
  | .test | .emptyUnlock | .take | .unlock _ => some true
  | .start | .idle | .choose _ | .wait .. | .dispatch .. => some false

/-- **The code of the pop thread.** -/
def popCode (numHosts : ℤ) : Code Server where
  Point := PopPoint
  Input := ℤ
  start := .start
  atEnd p := p = .idle
  call := PopPoint.call
  next := popNext numHosts

/-! ### `job_queue_result_1` -/

/-- **The points of the result thread**: with no report, and in the handling of a FINISHED
report. -/
inductive ResultPoint where
  | idle
  | release (msg : Msg)
  | countDown (msg : Msg)
  | test (msg : Msg)
  | lock (msg : Msg)
  | finish (msg : Msg)
  | unlock

/-- **The steps of the result thread**, with the report it reads and the clock. -/
def resultNext : ResultPoint → Msg × ℤ → Server → Option (Server × ResultPoint)
  | .idle, (msg, _), s =>
      some (s, if msg.m2 = JobStat.finished.code then .release msg else .idle)
  | .release msg, _, s =>
      if inTable maxNumHosts msg.src then some (s.release msg.src, .countDown msg) else none
  | .countDown msg, _, s =>
      if inTable maxJobQueue msg.m1 then
        some (s.setJobnodes msg.m1 (s.jobnodes msg.m1 - 1), .test msg)
      else none
  | .test msg, _, s => some (s, if s.jobnodes msg.m1 = 0 then .lock msg else .idle)
  | .lock msg, _, s => some (s, .finish msg)
  | .finish msg, (_, now), s => some (s.finish msg.m1 now, .unlock)
  | .unlock, _, s => some (s, .idle)

/-- Released and then counted down, a node is what a FINISHED report leaves. -/
lemma release_countDown {msg : Msg} (hsrc : inTable maxNumHosts msg.src)
    (hjob : inTable maxJobQueue msg.m1) (now : ℤ) (s : Server) :
    (resultNext (.release msg) (msg, now) s).bind (fun r => resultNext r.2 (msg, now) r.1) =
      some (s.countDown msg.src msg.m1, .test msg) := by
  rw [resultNext, if_pos hsrc, Option.bind_some, resultNext, if_pos hjob]
  rfl

/-- The calls of `pthread_mutex_lock` and `pthread_mutex_unlock`. -/
def ResultPoint.call : ResultPoint → Call
  | .lock _ => .lock
  | .unlock => .unlock
  | .idle | .release _ | .countDown _ | .test _ | .finish _ => .other

/-- Where the result thread holds the lock. -/
def ResultPoint.held : ResultPoint → Option Bool
  | .finish _ | .unlock => some true
  | .idle | .release _ | .countDown _ | .test _ | .lock _ => some false

/-- **The code of the result thread.** -/
def resultCode : Code Server where
  Point := ResultPoint
  Input := Msg × ℤ
  start := .idle
  atEnd p := p = .idle
  call := ResultPoint.call
  next := resultNext

/-! ### All threads -/

/-- The threads that use `jobq_lock`. -/
inductive JobqThread where
  | monitor
  | pop
  | result
  deriving DecidableEq

/-- The code of a thread. -/
def JobqThread.code (numHosts : ℤ) : JobqThread → Code Server
  | .monitor => monitorCode numHosts
  | .pop => popCode numHosts
  | .result => resultCode

/-- **Every interleaving** of the threads, from the configured tables. -/
def jobqLock (numHosts : ℤ) (ips : ℤ → Bytes) :
    Machine (LockState (JobqThread.code numHosts)) (ThreadStep (JobqThread.code numHosts)) :=
  lockMachine (JobqThread.code numHosts) (configure ips)

/-! ### The tables of the points -/

section Tables

variable {numHosts : ℤ}

/-- **The points of the job monitor**, while its SUBMITs find room. -/
lemma monitor_annotated :
    Annotated (monitorCode numHosts) MonitorPoint.FindsRoom MonitorPoint.held where
  start := rfl
  lock p _ hcall := by cases p <;> first | rfl | cases hcall
  unlock p hknown hcall := by cases p <;> first | rfl | exact absurd rfl hknown | cases hcall
  atEnd p _ hend := by
    cases hend
    rfl
  next p b i s s' p' hheld hguard hnext := by
    cases p with
    | idle =>
        obtain ⟨req, now⟩ := i
        cases hheld
        cases req with
        | query src jobId =>
            cases hnext
            show MonitorPoint.held (if -2 ≤ jobId then _ else _) = some false
            split_ifs <;> rfl
        | cancel | submit | other =>
            cases hnext
            rfl
    | cancelScan jobId nodeId =>
        cases hheld
        cases hnext
        show MonitorPoint.held (if nodeId ≤ numHosts then _ else _) = some true
        split_ifs <;> rfl
    | test req =>
        -- the queue is not full
        cases hheld
        cases hnext
        show MonitorPoint.held (if queueFull s then _ else _) = some true
        rw [if_neg hguard]
        rfl
    | store req =>
        cases hheld
        obtain ⟨pcomm, -, hnext⟩ := Option.bind_eq_some_iff.mp hnext
        obtain ⟨username, -, hnext⟩ := Option.bind_eq_some_iff.mp hnext
        cases hnext
        rfl
    | queryScan jobId k =>
        cases hheld
        cases hnext
        show MonitorPoint.held (if _ then _ else _) = some true
        split_ifs <;> rfl
    | fullUnlock =>
        -- the branch of a full queue is not among the points of this table
        cases hheld
    | cancelLock | cancelUnlock | testLock | testUnlock | pushLock | advance | pushUnlock
    | queryLock | queryUnlock =>
        cases hheld
        cases hnext
        rfl

/-- **The points of the pop thread.** It holds the lock while it tests the queue and takes a job,
and waits for the nodes and dispatches without it. -/
lemma pop_annotated : Annotated (popCode numHosts) (fun _ _ => True) PopPoint.held where
  start := rfl
  lock p _ hcall := by cases p <;> first | rfl | cases hcall
  unlock p _ hcall := by cases p <;> first | rfl | cases hcall
  atEnd p _ hend := by
    cases hend
    rfl
  next p b now s s' p' hheld _ hnext := by
    cases p with
    | test =>
        cases hheld
        cases hnext
        show PopPoint.held (if s.jobHead = s.jobTail then _ else _) = some true
        split_ifs <;> rfl
    | take =>
        cases hheld
        obtain ⟨r, -, hr⟩ := Option.map_eq_some_iff.mp hnext
        cases hr
        rfl
    | choose j =>
        cases hheld
        simp only [popCode, popNext] at hnext
        split_ifs at hnext <;> · cases hnext; rfl
    | wait j count k =>
        cases hheld
        simp only [popCode, popNext] at hnext
        split_ifs at hnext <;> · cases hnext; rfl
    | dispatch j round k =>
        cases hheld
        simp only [popCode, popNext] at hnext
        split_ifs at hnext <;> · cases hnext; rfl
    | start | idle | emptyUnlock | unlock =>
        cases hheld
        cases hnext
        rfl

/-- **The points of the result thread.** Only the FINISHED mark of a job is set under the lock; the
node is freed and the job counted down before it is taken. -/
lemma result_annotated : Annotated resultCode (fun _ _ => True) ResultPoint.held where
  start := rfl
  lock p _ hcall := by cases p <;> first | rfl | cases hcall
  unlock p _ hcall := by cases p <;> first | rfl | cases hcall
  atEnd p _ hend := by
    cases hend
    rfl
  next p b i s s' p' hheld _ hnext := by
    cases p with
    | idle =>
        cases hheld
        cases hnext
        show ResultPoint.held (if i.1.m2 = JobStat.finished.code then _ else _) = some false
        split_ifs <;> rfl
    | release msg =>
        cases hheld
        simp only [resultCode, resultNext] at hnext
        split_ifs at hnext
        cases hnext
        rfl
    | countDown msg =>
        cases hheld
        simp only [resultCode, resultNext] at hnext
        split_ifs at hnext
        cases hnext
        rfl
    | test msg =>
        cases hheld
        cases hnext
        show ResultPoint.held (if s.jobnodes msg.m1 = 0 then _ else _) = some false
        split_ifs <;> rfl
    | lock | finish | unlock =>
        cases hheld
        cases hnext
        rfl

end Tables

/-! ### The discipline -/

/-- **No SUBMIT is handled while the queue is full.** -/
def FindsRoom (numHosts : ℤ) : ∀ t, (JobqThread.code numHosts t).Point → Server → Prop
  | .monitor => MonitorPoint.FindsRoom
  | .pop | .result => fun _ _ => True

/-- Where the threads hold the lock. -/
def jobqHeld (numHosts : ℤ) : ∀ t, (JobqThread.code numHosts t).Point → Option Bool
  | .monitor => MonitorPoint.held
  | .pop => PopPoint.held
  | .result => ResultPoint.held

lemma jobq_annotated (numHosts : ℤ) (t : JobqThread) :
    Annotated (JobqThread.code numHosts t) (FindsRoom numHosts t) (jobqHeld numHosts t) := by
  cases t with
  | monitor => exact monitor_annotated
  | pop => exact pop_annotated
  | result => exact result_annotated

/-- **The discipline of `jobq_lock`**, in every interleaving in which no SUBMIT is handled
while the queue is full. -/
theorem lock_discipline {numHosts : ℤ} {ips : ℤ → Bytes}
    {s : LockState (JobqThread.code numHosts)}
    (h : (jobqLock numHosts ips).Reach (StepGuard (FindsRoom numHosts)) s) : Discipline s :=
  discipline_of_annotated (jobq_annotated numHosts) h

/-- A SUBMIT of an empty command. -/
def emptySubmit : SubmitRequest := ⟨1, [], 0, 1, [], 0⟩

/-- A step of the monitor for such a SUBMIT. -/
def submitStep : ThreadStep (JobqThread.code 1) := ⟨.monitor, (.submit emptySubmit, 0)⟩

theorem lock_discipline_submit :
    ∃ s, (jobqLock 1 fun _ => []).Reach (StepGuard (FindsRoom 1)) s ∧
      s.inside .monitor = true ∧ Discipline s := by
  have hreach : (jobqLock 1 fun _ => []).Reach (StepGuard (FindsRoom 1)) _ :=
    .step (l := submitStep)
      (.step (l := submitStep) (.step (l := submitStep) .init trivial rfl) trivial rfl)
      (show ¬queueFull (configure fun _ => []) by decide) rfl
  exact ⟨_, hreach, rfl, lock_discipline hreach⟩

/-- **A SUBMIT that finds the queue full** breaks the discipline two steps later: the monitor
is about to unlock again what it does not hold. -/
theorem full_submit_breaks {numHosts : ℤ} {ips : ℤ → Bytes}
    {s : LockState (JobqThread.code numHosts)} {req : SubmitRequest}
    (hpoint : s.point .monitor = MonitorPoint.test req) (hfull : queueFull s.shared)
    (i : JobRequest × ℤ) :
    ∃ s', (jobqLock numHosts ips).run [⟨.monitor, i⟩, ⟨.monitor, i⟩] s = some s' ∧
      ¬Discipline s' := by
  let s₁ : LockState (JobqThread.code numHosts) :=
    { s with point := Function.update s.point .monitor (MonitorPoint.fullUnlock req) }
  let s₂ : LockState (JobqThread.code numHosts) :=
    { s₁ with
      holder := none
      inside := Function.update s.inside .monitor false
      point := Function.update s₁.point .monitor (MonitorPoint.testUnlock req) }
  have htest : (jobqLock numHosts ips).step ⟨.monitor, i⟩ s = some s₁ := by
    have hnext : monitorNext numHosts (s.point .monitor) i s.shared =
        some (s.shared, .fullUnlock req) := by
      rw [hpoint, monitorNext, if_pos hfull]
    have hcall : MonitorPoint.call (s.point .monitor) = .other := by rw [hpoint]; rfl
    exact step_of_other (l := (⟨.monitor, i⟩ : ThreadStep (JobqThread.code numHosts))) hcall hnext
  have hunlock : (jobqLock numHosts ips).step ⟨.monitor, i⟩ s₁ = some s₂ := by
    rfl
  refine ⟨s₂, ?_, fun h => ?_⟩
  · show ((jobqLock numHosts ips).step _ s).bind _ = _
    rw [htest, Option.bind_some]
    show ((jobqLock numHosts ips).step _ s₁).bind _ = _
    rw [hunlock]
    rfl
  · have hheld := h.unlock .monitor rfl
    cases hheld

/-- The monitor fills the queue, and one more SUBMIT lets a second thread in. -/
def fullQueueRun : List (ThreadStep (JobqThread.code 1)) :=
  List.replicate (8 * 31) submitStep ++ ⟨.pop, (0 : ℤ)⟩ ::
    (List.replicate 4 submitStep ++ ⟨.pop, (0 : ℤ)⟩ :: List.replicate 2 submitStep)

theorem full_queue_lets_two_in :
    ∃ s, (jobqLock 1 fun _ => []).Reach Machine.always s ∧ ¬Discipline s := by
  have htest : (((jobqLock 1 fun _ => []).run fullQueueRun (jobqLock 1 fun _ => []).init).any
      fun s => s.inside .monitor && s.inside .pop) = true := by
    decide +kernel
  obtain ⟨s, hreach, hs⟩ := Machine.exists_reach_of_run htest
  obtain ⟨hmonitor, hpop⟩ := Bool.and_eq_true_iff.mp hs
  exact ⟨s, hreach, fun h => JobqThread.noConfusion (h.exclusive _ _ hmonitor hpop)⟩

end Epbs
