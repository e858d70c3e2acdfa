/-
The job queue: the SUBMIT branch of `job_monitor_etransfer` at one end, the
taking of a job by `job_queue_pop` at the other, and the bounded FIFO they are
meant to be.

* `jobMonitorSubmit`, `jobQueueTake`: the two critical sections, as the code
  has them: the full-queue test of SUBMIT prints a warning and goes on;
* `SubmitRequest.CopiesFit`: the strings of a SUBMIT stay inside their fields;
* `queueMachine`: any interleaving of the two, with the history of what was
  accepted and what was popped;
* `waiting`: the jobs between the indices, and `Represents`: the FIFO of
  capacity `MAX_JOB_QUEUE - 1` behind a queue with its history;
* `jobQueue_refines_fifo`: the refinement, over every run whose SUBMITs find
  room, have strings that fit, and store a command that the pop can copy;
* `full_submit_loses_jobs`: what a SUBMIT into a full queue does instead.
-/
import Epbs.Machine.Fifo
import Epbs.Server.Tables

namespace Epbs

/-! ### The two critical sections -/

/-- A `MSG_TYPE_JOB_SUBMIT` request: the header words and the two strings as
the SUBMIT branch takes them from the receive buffer. -/
structure SubmitRequest where
  src : ℤ
  commStr : Bytes
  commStrLen : ℤ
  numReqNodes : ℤ
  username : Bytes
  usernameLen : ℤ

/-- **The strings of a SUBMIT fit their fields**: the two copies, in which the
string from the network is the format, are defined, and they stay inside
`pcomm[256]` and `username[32]`.  A copy that leaves its field overwrites the
fields and the slots behind it. -/
def SubmitRequest.CopiesFit (req : SubmitRequest) : Prop :=
  (sprintf 256 req.commStr req.commStrLen).isSome = true ∧
    (sprintf 32 req.username req.usernameLen).isSome = true

instance (req : SubmitRequest) : Decidable req.CopiesFit :=
  inferInstanceAs (Decidable (_ ∧ _))

/-- What a SUBMIT answers, and whether it printed `job queue is full`. -/
structure SubmitReply where
  newJobId : ℤ
  warning : Bool

/-- The test for a full queue. -/
def queueFull (s : Server) : Prop := (s.jobHead + 1) % maxJobQueue = s.jobTail

instance (s : Server) : Decidable (queueFull s) := inferInstanceAs (Decidable (_ = _))

/-- The job SUBMIT stores in the slot `i`, which held `job`. -/
def SubmitRequest.store (req : SubmitRequest) (pcomm username : Bytes) (now i : ℤ)
    (job : BatchJobInfo) : BatchJobInfo :=
  { job with
    pcomm := pcomm
    username := username
    numReqNodes := req.numReqNodes
    time1 := now
    jobStat := .inqueue
    jobId := i }

/-- **SUBMIT** (`job_monitor_etransfer`, `MSG_TYPE_JOB_SUBMIT`).  The full-queue
branch unlocks and warns, but does not leave: the slot at the head is written
and the head moves in either case.  Not defined if a copy leaves its field. -/
def jobMonitorSubmit (req : SubmitRequest) (now : ℤ) (s : Server) :
    Option (Server × SubmitReply) := do
  let warning := decide (queueFull s)
  let pcomm ← sprintf 256 req.commStr req.commStrLen
  let username ← sprintf 32 req.username req.usernameLen
  let job := req.store pcomm username now s.jobHead (s.jobq s.jobHead)
  return ((s.writeSlot s.jobHead job).advanceHead, ⟨s.jobHead, warning⟩)

/-- A SUBMIT is handled inside the tables exactly if its strings fit. -/
lemma jobMonitorSubmit_isSome_iff {req : SubmitRequest} {now : ℤ} {s : Server} :
    (jobMonitorSubmit req now s).isSome = true ↔ req.CopiesFit := by
  rw [jobMonitorSubmit, SubmitRequest.CopiesFit]
  cases sprintf 256 req.commStr req.commStrLen <;>
    cases sprintf 32 req.username req.usernameLen <;> simp

/-- The private copy `job_queue_pop` keeps of the job it took, and the slot its
`job` pointer points to. -/
structure PoppedJob where
  slot : ℤ
  jobId : ℤ
  pcomm : Bytes
  numReqNodes : ℤ

/-- A slot is marked RUNNING. -/
def BatchJobInfo.start (job : BatchJobInfo) : BatchJobInfo := { job with jobStat := .running }

/-- Taking a job marks its slot RUNNING. -/
lemma update_start_jobStat (jobq : ℤ → BatchJobInfo) (i j : ℤ) :
    (Function.update jobq i (jobq i).start j).jobStat
      = if j = i then .running else (jobq j).jobStat := by
  rw [Function.update_apply]
  split_ifs <;> rfl

@[simp] lemma update_start_numReqNodes (jobq : ℤ → BatchJobInfo) (i j : ℤ) :
    (Function.update jobq i (jobq i).start j).numReqNodes = (jobq j).numReqNodes := by
  by_cases h : j = i
  · rw [h, Function.update_self]
    rfl
  · rw [Function.update_of_ne h]

/-- **The pop** (`job_queue_pop`, the critical section): nothing if the indices
are equal; otherwise the command is copied through `sprintf` into 32 bytes, the
tail moves and the slot is marked RUNNING. -/
def jobQueueTake (s : Server) : Option (Option PoppedJob × Server) :=
  if s.jobHead = s.jobTail then some (none, s)
  else do
    let job := s.jobq s.jobTail
    let pcomm ← sprintf 32 job.pcomm job.pcomm.length
    return (some ⟨s.jobTail, job.jobId, pcomm, job.numReqNodes⟩,
      (s.writeSlot s.jobTail job.start).advanceTail)

/-- What a SUBMIT does: the slot at the head takes the request, the head moves,
and nothing else changes. -/
lemma jobMonitorSubmit_cases {req : SubmitRequest} {now : ℤ} {s s' : Server}
    {reply : SubmitReply} (h : jobMonitorSubmit req now s = some (s', reply)) :
    ∃ pcomm username, sprintf 256 req.commStr req.commStrLen = some pcomm ∧
      reply = ⟨s.jobHead, decide (queueFull s)⟩ ∧
      s' = (s.writeSlot s.jobHead
        (req.store pcomm username now s.jobHead (s.jobq s.jobHead))).advanceHead := by
  obtain ⟨pcomm, hp, h⟩ := Option.bind_eq_some_iff.mp h
  obtain ⟨username, _, h⟩ := Option.bind_eq_some_iff.mp h
  obtain ⟨rfl, rfl⟩ := Prod.mk.inj (Option.some.inj h)
  exact ⟨pcomm, username, hp, rfl, rfl⟩

/-- What a pop does: nothing on equal indices, and otherwise it takes the job at
the tail with a copy of its command. -/
lemma jobQueueTake_cases {s s' : Server} {taken : Option PoppedJob}
    (h : jobQueueTake s = some (taken, s')) :
    (s.jobHead = s.jobTail ∧ taken = none ∧ s' = s) ∨
    (s.jobHead ≠ s.jobTail ∧ ∃ pcomm,
      sprintf 32 (s.jobq s.jobTail).pcomm (s.jobq s.jobTail).pcomm.length = some pcomm ∧
      taken = some ⟨s.jobTail, (s.jobq s.jobTail).jobId, pcomm,
        (s.jobq s.jobTail).numReqNodes⟩ ∧
      s' = (s.writeSlot s.jobTail (s.jobq s.jobTail).start).advanceTail) := by
  rw [jobQueueTake] at h
  split_ifs at h with hempty
  · obtain ⟨rfl, rfl⟩ := Prod.mk.inj (Option.some.inj h)
    exact Or.inl ⟨hempty, rfl, rfl⟩
  · obtain ⟨pcomm, hp, h⟩ := Option.bind_eq_some_iff.mp h
    obtain ⟨rfl, rfl⟩ := Prod.mk.inj (Option.some.inj h)
    exact Or.inr ⟨hempty, pcomm, hp, rfl, rfl⟩

/-- Taking a job needs nothing but room for its command. -/
lemma jobQueueTake_isSome_iff {s : Server} :
    (jobQueueTake s).isSome = true ↔ (s.jobHead ≠ s.jobTail →
      (sprintf 32 (s.jobq s.jobTail).pcomm (s.jobq s.jobTail).pcomm.length).isSome = true) := by
  rw [jobQueueTake]
  split_ifs with hempty
  · exact iff_of_true rfl fun hne => absurd hempty hne
  · rw [imp_iff_right hempty]
    cases hcopy : sprintf 32 (s.jobq s.jobTail).pcomm (s.jobq s.jobTail).pcomm.length with
    | none | some pcomm => simp [hcopy]

/-- What taking a job does, and what the private copy says about the slot. -/
lemma jobQueueTake_some {s s' : Server} {j : PoppedJob}
    (h : jobQueueTake s = some (some j, s')) :
    s.jobHead ≠ s.jobTail ∧ j.slot = s.jobTail ∧ j.jobId = (s.jobq s.jobTail).jobId ∧
      j.numReqNodes = (s.jobq s.jobTail).numReqNodes ∧
      s' = (s.writeSlot s.jobTail (s.jobq s.jobTail).start).advanceTail := by
  rcases jobQueueTake_cases h with ⟨_, hnone, _⟩ | ⟨hne, pcomm, _, hj, hs'⟩
  · cases hnone
  · cases hj
    exact ⟨hne, rfl, rfl, rfl, hs'⟩

/-! ### Interleavings with their history -/

/-- What a slot stores of a job. -/
structure QueuedJob where
  jobId : ℤ
  pcomm : Bytes
  username : Bytes
  numReqNodes : ℤ
  deriving DecidableEq

/-- The stored job of a slot. -/
def BatchJobInfo.queued (job : BatchJobInfo) : QueuedJob :=
  ⟨job.jobId, job.pcomm, job.username, job.numReqNodes⟩

/-- The queue with its history: the jobs stored by SUBMITs that found room, as
they were stored, and the jobs popped, with the command and count of the
private copy. -/
structure QueueHistory where
  srv : Server
  accepted : List QueuedJob
  popped : List QueuedJob

/-- The producer's and the consumer's step: a SUBMIT with its test for room, and a pop with its test
for an empty queue. -/
inductive QueueOp where
  | submit (req : SubmitRequest) (now : ℤ)
  | pop

/-- Every interleaving of SUBMITs and pops, from the configured tables. -/
def queueMachine (ips : ℤ → Bytes) : Machine QueueHistory QueueOp where
  init := ⟨configure ips, [], []⟩
  step
    | .submit req now, q => do
        let (srv, reply) ← jobMonitorSubmit req now q.srv
        return { srv := srv
                 accepted := if queueFull q.srv then q.accepted
                   else q.accepted ++ [(srv.jobq reply.newJobId).queued]
                 popped := q.popped }
    | .pop, q => do
        let (taken, srv) ← jobQueueTake q.srv
        return { srv := srv
                 accepted := q.accepted
                 popped := q.popped ++ taken.toList.map fun job =>
                   ⟨job.jobId, job.pcomm, (srv.jobq job.slot).username, job.numReqNodes⟩ }

/-- The jobs from the tail up to the head. -/
def waiting (s : Server) : List QueuedJob :=
  Ring.contents maxJobQueue (fun i => (s.jobq i).queued) s.jobTail s.jobHead

/-- The FIFO a queue with its history stands for: its items are the slots from `job_tail` up to
`job_head`. -/
structure Represents (q : QueueHistory) (f : Fifo QueuedJob (maxJobQueue - 1)) : Prop where
  items : f.items = waiting q.srv
  accepted : f.accepted = q.accepted
  popped : f.popped = q.popped

/-- **One step of the queue is the FIFO's step**: a SUBMIT that finds room
pushes the job it stores, a SUBMIT that finds none changes nothing, a pop pops,
and the index test says `empty` exactly when no accepted job is waiting. -/
structure StepRefines (q : QueueHistory) (op : QueueOp) (q' : QueueHistory) : Prop where
  step : ∃ f, Represents q f ∧ match op with
    | .submit _ _ => Represents q' (f.push (q'.srv.jobq q.srv.jobHead).queued)
    | .pop => Represents q' f.pop
  full : queueFull q.srv → op ≠ .pop → q'.srv = q.srv
  empty : q.srv.jobHead = q.srv.jobTail ↔ q.accepted = q.popped

/-- The runs on which the queue is a FIFO: every SUBMIT finds room, both of its
strings fit their fields, and the command it stores has no `%` and fits the
pop's 32 bytes. -/
def QueueGuard (q : QueueHistory) : QueueOp → Prop
  | .submit req _ => ¬ queueFull q.srv ∧ req.CopiesFit ∧
      ∀ pcomm, sprintf 256 req.commStr req.commStrLen = some pcomm →
        percent ∉ pcomm ∧ pcomm.length < 32
  | .pop => True

/-- Every step of every guarded run stays inside the tables and is a FIFO step. -/
def QueueRefines (ips : ℤ → Bytes) (G : QueueHistory → QueueOp → Prop) : Prop :=
  ∀ q op, (queueMachine ips).Reach G q → G q op →
    ∃ q', (queueMachine ips).step op q = some q' ∧ StepRefines q op q'

/-! ### The refinement -/

lemma maxJobQueue_pos : 0 < maxJobQueue := by decide

/-- The index after an index is in the ring. -/
lemma inTable_succ (i : ℤ) : inTable maxJobQueue ((i + 1) % maxJobQueue) :=
  Ring.dist_bounds maxJobQueue_pos 0 (i + 1) |> fun h => by rwa [sub_zero] at h

/-- The invariant of the guarded runs: the indices are in the table, what was accepted is what was
popped and what waits, and every command that waits can be copied unchanged. -/
structure QueueInv (q : QueueHistory) : Prop where
  head : inTable maxJobQueue q.srv.jobHead
  tail : inTable maxJobQueue q.srv.jobTail
  plain : ∀ job ∈ waiting q.srv,
    (percent ∉ job.pcomm ∧ job.pcomm.length < 32) ∧ (0 : UInt8) ∉ job.pcomm
  conserved : q.accepted = q.popped ++ waiting q.srv

/-- The stored jobs of a table in which one slot was written. -/
lemma queued_update (jobq : ℤ → BatchJobInfo) (i : ℤ) (job : BatchJobInfo) :
    (fun j => (Function.update jobq i job j).queued)
      = Function.update (fun j => (jobq j).queued) i job.queued := by
  funext j
  rw [Function.update_apply, Function.update_apply]
  split_ifs <;> rfl

/-- One slot of the ring always stays free. -/
lemma length_waiting_le (s : Server) : (waiting s).length ≤ maxJobQueue - 1 :=
  Nat.le_pred_of_lt (Ring.length_contents_lt maxJobQueue_pos)

namespace QueueInv

variable {q : QueueHistory}

/-- The FIFO of a queue that keeps the invariant. -/
def fifo (h : QueueInv q) : Fifo QueuedJob (maxJobQueue - 1) :=
  ⟨waiting q.srv, q.accepted, q.popped, length_waiting_le q.srv, h.conserved⟩

lemma represents (h : QueueInv q) : Represents q h.fifo := ⟨rfl, rfl, rfl⟩

/-- The index test of the pop. -/
lemma empty_iff (h : QueueInv q) :
    q.srv.jobHead = q.srv.jobTail ↔ q.accepted = q.popped := by
  rw [h.conserved, List.append_right_eq_self]
  exact (Ring.contents_eq_nil_iff _ maxJobQueue_pos h.tail h.head).symm

/-- The index test of SUBMIT leaves room in the FIFO. -/
lemma length_lt_of_not_full (h : QueueInv q) (hroom : ¬ queueFull q.srv) :
    (waiting q.srv).length < maxJobQueue - 1 := by
  have hne := (Ring.full_iff (fun i => (q.srv.jobq i).queued) maxJobQueue_pos h.tail).not.mp hroom
  have := length_waiting_le q.srv
  exact lt_of_le_of_ne this fun heq => hne (by rw [← waiting, heq]; rfl)

end QueueInv

lemma queueInv_init (ips : ℤ → Bytes) : QueueInv (queueMachine ips).init where
  head := show inTable maxJobQueue 0 by decide
  tail := show inTable maxJobQueue 0 by decide
  plain := by intro job hjob; cases hjob
  conserved := rfl

/-- A SUBMIT that finds room appends the job it stores. -/
lemma waiting_submit {q : QueueHistory} (h : QueueInv q) (hroom : ¬ queueFull q.srv)
    (job : BatchJobInfo) :
    waiting (q.srv.writeSlot q.srv.jobHead job).advanceHead
      = waiting q.srv ++ [job.queued] := by
  rw [waiting, Server.advanceHead_jobq, Server.writeSlot_jobq, queued_update]
  exact Ring.contents_push maxJobQueue_pos h.tail h.head hroom job.queued

/-- A pop of a queue that is not empty takes the front. -/
lemma waiting_take {q : QueueHistory} (h : QueueInv q)
    (hne : q.srv.jobHead ≠ q.srv.jobTail) :
    waiting q.srv = (q.srv.jobq q.srv.jobTail).queued ::
      waiting (q.srv.writeSlot q.srv.jobTail (q.srv.jobq q.srv.jobTail).start).advanceTail := by
  -- marking the slot RUNNING does not touch what it stores
  have hmark : (fun i => ((q.srv.writeSlot q.srv.jobTail
      (q.srv.jobq q.srv.jobTail).start).advanceTail.jobq i).queued)
        = fun i => (q.srv.jobq i).queued := by
    rw [Server.advanceTail_jobq, Server.writeSlot_jobq, queued_update]
    exact Function.update_eq_self _ _
  rw [waiting, waiting, hmark]
  exact Ring.contents_pop maxJobQueue_pos h.tail h.head hne

/-- A guarded SUBMIT keeps the invariant and is a push. -/
lemma QueueInv.submit {q q' : QueueHistory} {req : SubmitRequest} {now : ℤ} {ips : ℤ → Bytes}
    (h : QueueInv q) (hg : QueueGuard q (.submit req now))
    (hs : (queueMachine ips).step (.submit req now) q = some q') :
    QueueInv q' ∧ Represents q' (h.fifo.push (q'.srv.jobq q.srv.jobHead).queued) := by
  obtain ⟨hroom, -, hplain⟩ := hg
  obtain ⟨⟨srv, reply⟩, hsub, hs⟩ := Option.bind_eq_some_iff.mp hs
  obtain ⟨pcomm, username, hp, rfl, rfl⟩ := jobMonitorSubmit_cases hsub
  cases Option.some.inj hs
  simp only [if_neg hroom, Server.advanceHead_jobq, Server.writeSlot_jobq, Function.update_self]
  have hw := waiting_submit h hroom
  refine ⟨⟨inTable_succ _, h.tail, ?_, ?_⟩, ?_⟩
  · intro job hjob
    rw [hw] at hjob
    rcases List.mem_append.mp hjob with hold | hnew
    · exact h.plain job hold
    · rw [List.mem_singleton.mp hnew]
      exact ⟨hplain pcomm hp, sprintf_nul_free hp⟩
  · rw [hw, h.conserved, List.append_assoc]
  · obtain ⟨hi, ha, hpop⟩ := Fifo.push_of_lt (q := h.fifo) _ (h.length_lt_of_not_full hroom)
    exact ⟨hi.trans (hw _).symm, ha, hpop⟩

/-- A pop keeps the invariant and is the FIFO's pop. -/
lemma QueueInv.pop {q q' : QueueHistory} {ips : ℤ → Bytes} (h : QueueInv q)
    (hs : (queueMachine ips).step .pop q = some q') :
    QueueInv q' ∧ Represents q' h.fifo.pop := by
  obtain ⟨⟨taken, srv⟩, htake, hs⟩ := Option.bind_eq_some_iff.mp hs
  cases Option.some.inj hs
  rcases jobQueueTake_cases htake with ⟨heq, rfl, rfl⟩ | ⟨hne, pcomm, hp, rfl, rfl⟩
  · have hnil : waiting q.srv = [] :=
      (Ring.contents_eq_nil_iff _ maxJobQueue_pos h.tail h.head).mpr heq
    simp only [Option.toList_none, List.map_nil, List.append_nil]
    rw [Fifo.pop_of_nil (q := h.fifo) hnil]
    exact ⟨h, h.represents⟩
  · have hw := waiting_take h hne
    obtain ⟨⟨hpercent, hlen⟩, hnul⟩ :=
      h.plain (q.srv.jobq q.srv.jobTail).queued (by rw [hw]; exact List.mem_cons_self)
    -- the private copy is the stored command
    rw [BatchJobInfo.queued] at hpercent hlen hnul
    rw [sprintf_of_plain hpercent hnul hlen] at hp
    cases Option.some.inj hp
    simp only [Option.toList_some, List.map_singleton, Server.advanceTail_jobq,
      Server.writeSlot_jobq, Function.update_self]
    refine ⟨⟨h.head, inTable_succ _, fun job hjob => h.plain job ?_, ?_⟩, ?_⟩
    · rw [hw]
      exact List.mem_cons_of_mem _ hjob
    · rw [h.conserved, hw, List.append_assoc]
      rfl
    · obtain ⟨hi, ha, hpop⟩ := Fifo.pop_of_cons (q := h.fifo) hw
      exact ⟨hi, ha, hpop⟩

/-- **A guarded step is defined**: a SUBMIT whose strings fit writes nothing but its
slot, and a pop finds a command that it can copy. -/
lemma QueueInv.exists_step {q : QueueHistory} {op : QueueOp} (ips : ℤ → Bytes)
    (h : QueueInv q) (hg : QueueGuard q op) : ∃ q', (queueMachine ips).step op q = some q' := by
  cases op with
  | submit req now =>
      have hdef : (jobMonitorSubmit req now q.srv).isSome = true :=
        jobMonitorSubmit_isSome_iff.mpr hg.2.1
      obtain ⟨result, hsub⟩ := Option.isSome_iff_exists.mp hdef
      exact ⟨_, Option.bind_eq_some_iff.mpr ⟨result, hsub, rfl⟩⟩
  | pop =>
      have hcopy : q.srv.jobHead ≠ q.srv.jobTail →
          (sprintf 32 (q.srv.jobq q.srv.jobTail).pcomm
            (q.srv.jobq q.srv.jobTail).pcomm.length).isSome = true := by
        intro hne
        -- the job at the tail is the first one that waits
        obtain ⟨⟨hpercent, hlen⟩, hnul⟩ :=
          h.plain (q.srv.jobq q.srv.jobTail).queued (by rw [waiting_take h hne]; exact .head _)
        exact Option.isSome_of_eq_some (sprintf_of_plain hpercent hnul hlen _)
      obtain ⟨result, htake⟩ := Option.isSome_iff_exists.mp (jobQueueTake_isSome_iff.mpr hcopy)
      exact ⟨_, Option.bind_eq_some_iff.mpr ⟨result, htake, rfl⟩⟩

/-- The invariant holds along every guarded run. -/
lemma queueInv_of_reach {ips : ℤ → Bytes} {q : QueueHistory}
    (h : (queueMachine ips).Reach QueueGuard q) : QueueInv q := by
  refine h.invariant (queueInv_init ips) fun q op q' _ hq hg hs => ?_
  cases op with
  | submit req now => exact (hq.submit hg hs).1
  | pop => exact (hq.pop hs).1

/-- **The job queue refines the bounded FIFO**, over every interleaving of
SUBMITs and pops whose SUBMITs find room, with strings that fit their fields and
commands the pop can copy. -/
theorem jobQueue_refines_fifo (ips : ℤ → Bytes) : QueueRefines ips QueueGuard := by
  intro q op h hg
  have hq := queueInv_of_reach h
  obtain ⟨q', hs⟩ := hq.exists_step ips hg
  refine ⟨q', hs, ⟨hq.fifo, hq.represents, ?_⟩, ?_, hq.empty_iff⟩
  · cases op with
    | submit req now => exact (hq.submit hg hs).2
    | pop => exact (hq.pop hs).2
  · intro hfull hop
    cases op with
    | submit req now => exact absurd hfull hg.1
    | pop => exact absurd rfl hop

/-- A SUBMIT of the command `a` for one node. -/
def submitA : QueueOp := .submit ⟨1, [97], 2, 1, [117], 2⟩ 0

/-- **A SUBMIT into a full queue loses it**: the 32nd of 32 SUBMITs finds the
queue full and moves the head onto the tail, so the 31 accepted jobs are gone. -/
theorem full_submit_loses_jobs : ¬ QueueRefines (fun _ => []) Machine.always := by
  intro hall
  have hrun : ((queueMachine fun _ => []).run (List.replicate 31 submitA)
      (queueMachine fun _ => []).init).any (fun q => decide (queueFull q.srv) &&
        ((queueMachine fun _ => []).step submitA q).any
          fun q' => decide (q'.srv.jobHead ≠ q.srv.jobHead)) = true := by decide +kernel
  obtain ⟨q, hq, hp⟩ := Machine.exists_reach_of_run hrun
  rw [Bool.and_eq_true, decide_eq_true_iff, Option.any_eq_true] at hp
  obtain ⟨hfull, q', hstep, hhead⟩ := hp
  obtain ⟨q'', hstep', hrefines⟩ := hall q submitA hq trivial
  cases hstep.symm.trans hstep'
  have hsame := hrefines.full hfull (by rw [submitA]; exact nofun)
  exact of_decide_eq_true hhead (by rw [hsame])

end Epbs
