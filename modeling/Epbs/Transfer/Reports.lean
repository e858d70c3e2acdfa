/-
The reports of a run: the two loops that read them, with the buffers they keep
(`job_queue_result_1`, `epbs_host_status`).

* `Read`: what `recv` gives on a connection: a complete report, nothing from a peer that
  closed, an error;
* `ReportLoops`: the two receive buffers, the `recv_size` of `epbs_host_status`, and the
  tables; `reportLoops`: every interleaving of reads, with the other threads;
* `jobQueueResult1_reads`, `epbsHostStatus_reads`: what an iteration of the loops does is
  what the reads of its events do;
* `Lawful`: a failed read has no effect, a report is applied once;
* `no_report_no_effect_iff`: the runs that are lawful.
-/
import Epbs.Machine.Guarded
import Epbs.Transfer.ServiceLoop
import Epbs.Wire.Reports

namespace Epbs

/-! ### One read -/

/-- What `recv` gives on a connection of a node: a complete report and its result, 0 if the
peer closed, -1 for an error. -/
inductive Read where
  | report (bytes : {bytes : Bytes // 24 ≤ bytes.length ∧ bytes.length ≤ msgBuffSize})
  | closed
  | failed

namespace Read

/-- The bytes that go into the receive buffer. -/
def bytes : Read → Bytes
  | .report bytes => bytes.1
  | .closed | .failed => []

/-- The result of `recv`. -/
def size : Read → ℤ
  | .report bytes => bytes.1.length
  | .closed => 0
  | .failed => -1

/-- A complete report was read. -/
def isReport : Read → Bool
  | .report _ => true
  | .closed | .failed => false

/-- Only a report has a positive result. -/
lemma size_pos_iff (r : Read) : 0 < r.size ↔ r.isReport = true := by
  cases r with
  | report bytes =>
      have hlen := bytes.2.1
      simp only [size, isReport, iff_true]
      omega
  | closed => simp [size, isReport]
  | failed => simp [size, isReport]

/-- A read fits the receive buffer. -/
lemma length_bytes_le (r : Read) : r.bytes.length ≤ msgBuffSize := by
  cases r with
  | report bytes => exact bytes.2.2
  | closed | failed => exact Nat.zero_le _

/-- A failed read brings no bytes. -/
lemma bytes_of_failed {r : Read} (h : r.isReport = false) : r.bytes = [] := by
  cases r with
  | report => cases h
  | closed | failed => rfl

end Read

namespace RecvBuffer

/-- A failed read leaves the buffer. -/
lemma recv_of_failed (buf : RecvBuffer) {r : Read} (h : r.isReport = false) :
    buf.recv r.bytes = buf := by
  rw [Read.bytes_of_failed h]
  exact Subtype.ext List.drop_zero

/-- The report that is read is the one that was sent. -/
lemma reportAt_recv (buf : RecvBuffer)
    (bytes : {bytes : Bytes // 24 ≤ bytes.length ∧ bytes.length ≤ msgBuffSize}) :
    reportAt (buf.recv bytes.1).1 = reportAt bytes.1 := by
  obtain ⟨msg, hmsg⟩ := reportAt_isSome (by omega : 20 ≤ bytes.1.length)
  rw [buf.recv_of_le bytes.2.2, hmsg]
  exact reportAt_append hmsg _

end RecvBuffer

/-! ### The two loops, read by read -/

/-- The report in a buffer, if it says FINISHED. -/
def finishedReport (recvBuffer : Bytes) : Option Msg :=
  (reportAt recvBuffer).filter fun msg => msg.m2 = JobStat.finished.code

/-- What `job_queue_result_1` and `epbs_host_status` keep between two iterations, and the
tables.  Next to them the FINISHED reports that were read, and those that were counted
down, latest first. -/
structure ReportLoops where
  resultBuffer : RecvBuffer
  hostBuffer : RecvBuffer
  hostRecvSize : ℤ
  srv : Server
  received : List Msg
  counted : List Msg

namespace ReportLoops

/-- A read of `job_queue_result_1`: the report is taken from the buffer whatever the result
was. -/
def readResult (r : Read) (now : ℤ) (x : ReportLoops) : Option ReportLoops :=
  let recvBuffer := x.resultBuffer.recv r.bytes
  (jobResultReport now recvBuffer.1 x.srv).map fun srv =>
    { x with
      resultBuffer := recvBuffer
      srv := srv
      received := (finishedReport r.bytes).toList ++ x.received
      counted := (finishedReport recvBuffer.1).toList ++ x.counted }

/-- The reads of an iteration of `epbs_host_status`: the last one decides `recv_size`. -/
def receiveAll (reads : List Read) (kept : RecvBuffer × ℤ) : RecvBuffer × ℤ :=
  reads.foldl (fun kept r => (kept.1.recv r.bytes, r.size)) kept

/-- An iteration of `epbs_host_status`, which may read no connection at all. -/
def readHosts (reads : List Read) (x : ReportLoops) : Option ReportLoops :=
  let (recvBuffer, recvSize) := receiveAll reads (x.hostBuffer, x.hostRecvSize)
  let x := { x with hostBuffer := recvBuffer, hostRecvSize := recvSize }
  if 0 < recvSize then
    (hostStatusReport recvBuffer.1 x.srv).map fun srv => { x with srv := srv }
  else some x

end ReportLoops

/-- A step: a read on the result port, an iteration on the host status port with its reads,
or other threads, which leave the host list alone. -/
inductive ReportStep where
  | result (r : Read) (now : ℤ)
  | hosts (reads : List Read)
  | others (srv : Server)

/-- Every interleaving of the two loops and of what the other threads do, from the
configured tables. -/
def reportLoops (resultBuffer hostBuffer : RecvBuffer) (ips : ℤ → Bytes) :
    Machine ReportLoops ReportStep where
  init := ⟨resultBuffer, hostBuffer, 0, configure ips, [], []⟩
  step
    | .result r now, x => x.readResult r now
    | .hosts reads, x => x.readHosts reads
    | .others srv, x => some { x with srv := { srv with hostq := x.srv.hostq } }

/-! ### What the loops do is what their reads do -/

/-- A connection of a node brings a complete report, or nothing. -/
def Io.Whole (io : Io) : Prop :=
  ∀ fd bytes, io.recv fd = .data bytes → bytes = [] ∨ 24 ≤ bytes.length

/-- The handlers of the reports; `none` once an index has left its table. -/
def Handlers.withReports (h : Handlers (Option Server)) (now : ℤ) : Handlers (Option Server) :=
  { h with
    jobResult := fun recvBuffer s => s.bind (jobResultReport now recvBuffer)
    hostStatus := fun recvBuffer s => s.bind (hostStatusReport recvBuffer) }

namespace ServiceLoop

variable {σ : Type*} {io : Io}

/-- `recv` in a loop is a read. -/
lemma receive_read (hio : io.Whole) (s : ServiceLoop σ) (p : Ptr) :
    ∃ r : Read, (s.receive io p).1.recvBuffer = r.bytes ++ s.recvBuffer.drop r.bytes.length ∧
      (s.receive io p).2 = r.size := by
  suffices hread : ∃ r : Read,
      (s.transfer.recv p msgBuffSize (io.recv (s.transfer.sock p).mSock)).2 = (r.bytes, r.size) by
    obtain ⟨r, hr⟩ := hread
    refine ⟨r, ?_, congrArg Prod.snd hr⟩
    rw [← show _ = r.bytes from congrArg Prod.fst hr]
    rfl
  cases hrecv : io.recv (s.transfer.sock p).mSock with
  | error errno =>
      rw [ETransfer.recv]
      split_ifs <;> exact ⟨.failed, rfl⟩
  | data bytes =>
      rw [ETransfer.recv]
      split_ifs with herror hempty
      · exact ⟨.failed, rfl⟩
      · exact ⟨.closed, rfl⟩
      · have hlen : 24 ≤ bytes.length := by
          refine (hio _ bytes hrecv).resolve_left fun hnil => hempty ?_
          rw [hnil, List.take_nil]
        have hsize : msgBuffSize = 2000 := rfl
        refine ⟨.report ⟨bytes.take msgBuffSize, ?_, List.length_take_le _ _⟩, rfl⟩
        rw [List.length_take]
        omega

/-! `job_queue_result_1` -/

section Result

variable {resultBuffer hostBuffer : RecvBuffer} {ips : ℤ → Bytes} {h : Handlers (Option Server)}
  {now : ℤ} {s : ServiceLoop (Option Server)} {x : Option ReportLoops}

/-- The loop `job_queue_result_1` between two events, and what its reads have done so far. -/
structure ShowsResult (s : ServiceLoop (Option Server)) (x : Option ReportLoops) : Prop where
  tables : s.tables = x.map (·.srv)
  buffer : ∀ x' ∈ x, s.recvBuffer = x'.resultBuffer.1

/-- An event of a connection is a read or nothing. A read is handled whatever it gave: the loop
does not look at the size, and takes the report from the buffer as it is. -/
lemma ShowsResult.onEvent (hio : io.Whole) (hs : s.ShowsResult x) (up : Upoll) :
    ∃ reads : List Read,
      (onEvent (jobQueueResultSocket (h.withReports now)) io s up).ShowsResult
        (x.bind ((reportLoops resultBuffer hostBuffer ips).run
          (reads.map fun r => .result r now))) := by
  -- the branches that do not read
  have hnone : ∀ s' : ServiceLoop (Option Server), s'.tables = s.tables →
      s'.recvBuffer = s.recvBuffer → ∃ reads : List Read, s'.ShowsResult
        (x.bind ((reportLoops resultBuffer hostBuffer ips).run
          (reads.map fun r => .result r now))) := by
    intro s' htables hbuffer
    refine ⟨[], ?_, ?_⟩
    · rw [htables, hs.tables]
      cases x <;> rfl
    · intro x' hx'
      obtain ⟨x₀, hx₀, hrun⟩ := Option.bind_eq_some_iff.mp hx'
      obtain rfl : x₀ = x' := Option.some.inj hrun
      exact hbuffer.trans (hs.buffer x₀ hx₀)
  rw [ServiceLoop.onEvent]
  split_ifs with hlistener hread
  · refine hnone _ ?_ ?_ <;> rw [acceptConnection] <;> split <;> rfl
  · exact hnone _ rfl rfl
  rw [jobQueueResultSocket]
  split_ifs with hread hwrite herror
  · obtain ⟨r, hbuffer, -⟩ := s.receive_read hio up.usock
    refine ⟨[r], ?_⟩
    cases x with
    | none => exact ⟨congrArg (Option.bind · _) hs.tables, fun x' hx' => by cases hx'⟩
    | some x₀ =>
        have hrecv : (s.receive io up.usock).1.recvBuffer = (x₀.resultBuffer.recv r.bytes).1 := by
          rw [hbuffer, hs.buffer x₀ rfl, RecvBuffer.recv_of_le _ r.length_bytes_le]
        have hstep : (reportLoops resultBuffer hostBuffer ips).run [.result r now] x₀ =
            x₀.readResult r now := Option.bind_fun_some _
        refine ⟨?_, fun x' hx' => ?_⟩
        · show s.tables.bind (jobResultReport now (s.receive io up.usock).1.recvBuffer) =
            Option.map _ ((reportLoops resultBuffer hostBuffer ips).run [.result r now] x₀)
          rw [hs.tables, hrecv, hstep, ReportLoops.readResult, Option.map_map]
          exact Option.map_id_apply.symm
        · obtain ⟨srv, -, rfl⟩ := Option.map_eq_some_iff.mp (hstep.symm.trans hx')
          exact hrecv
  · exact hnone _ rfl rfl
  · exact hnone _ rfl rfl
  · exact hnone _ rfl rfl

/-- The events of an iteration are reads. -/
lemma ShowsResult.foldl (hio : io.Whole) (hs : s.ShowsResult x) (dst : List Upoll) :
    ∃ reads : List Read,
      (dst.foldl (ServiceLoop.onEvent (jobQueueResultSocket (h.withReports now)) io)
        s).ShowsResult (x.bind ((reportLoops resultBuffer hostBuffer ips).run
          (reads.map fun r => .result r now))) := by
  induction dst generalizing s x with
  | nil =>
      refine ⟨[], ?_⟩
      rw [List.foldl_nil, List.map_nil]
      exact (Option.bind_fun_some x).symm ▸ hs
  | cons up dst ih =>
      obtain ⟨reads, hfirst⟩ := hs.onEvent hio up
      obtain ⟨reads', hrest⟩ := ih hfirst
      refine ⟨reads ++ reads', ?_⟩
      rw [List.foldl_cons, List.map_append]
      simp only [Machine.run_append, ← Option.bind_assoc]
      exact hrest

/-- **An iteration of `job_queue_result_1`** does what its reads do, one after the other. -/
theorem jobQueueResult1_reads (hio : io.Whole) (hs : s.ShowsResult x) :
    ∃ reads : List Read,
      (jobQueueResult1 (h.withReports now) io s).ShowsResult
        (x.bind ((reportLoops resultBuffer hostBuffer ips).run
          (reads.map fun r => .result r now))) := by
  rw [jobQueueResult1, iterate]
  simp only [if_true]
  have hselected : ∀ t : ETransfer, ({ s with transfer := t } : ServiceLoop _).ShowsResult x :=
    fun t => ⟨hs.tables, hs.buffer⟩
  split_ifs
  · exact (hselected _).foldl hio _
  · exact (hselected _).foldl (h := h) hio []

end Result

/-! `epbs_host_status` -/

section HostStatus

variable {h : Handlers (Option Server)} {now : ℤ} {s : ServiceLoop (Option Server)}
  {kept : RecvBuffer × ℤ}

/-- What `epbs_host_status` keeps from one event to the next: the buffer, and the size of the last
read, which the update behind the loop goes by. -/
structure Keeps (s : ServiceLoop (Option Server)) (kept : RecvBuffer × ℤ) : Prop where
  buffer : s.recvBuffer = kept.1.1
  size : s.recvSize = kept.2

/-- The events of an iteration are reads, and leave the tables. -/
lemma Keeps.foldl (hio : io.Whole) (hs : s.Keeps kept) (dst : List Upoll) :
    ∃ reads, (dst.foldl (ServiceLoop.onEvent epbsHostStatusSocket io) s).Keeps
        (ReportLoops.receiveAll reads kept) ∧
      (dst.foldl (ServiceLoop.onEvent epbsHostStatusSocket io) s).tables = s.tables := by
  induction dst generalizing s kept with
  | nil => exact ⟨[], hs, rfl⟩
  | cons up dst ih =>
      rw [List.foldl_cons]
      have hevent : ∃ reads, (ServiceLoop.onEvent epbsHostStatusSocket io s up).Keeps
            (ReportLoops.receiveAll reads kept) ∧
          (ServiceLoop.onEvent epbsHostStatusSocket io s up).tables = s.tables := by
        rw [ServiceLoop.onEvent]
        split_ifs with hlistener hread
        · refine ⟨[], ⟨?_, ?_⟩, ?_⟩ <;> rw [acceptConnection] <;> split
          exacts [hs.buffer, hs.buffer, hs.size, hs.size, rfl, rfl]
        · exact ⟨[], hs, rfl⟩
        rw [epbsHostStatusSocket]
        split_ifs with hread
        · obtain ⟨r, hbuffer, hsize⟩ := s.receive_read hio up.usock
          refine ⟨[r], ⟨?_, hsize⟩, rfl⟩
          refine hbuffer.trans ?_
          rw [hs.buffer, ← RecvBuffer.recv_of_le _ r.length_bytes_le]
          rfl
        · exact ⟨[], hs, rfl⟩
      obtain ⟨reads, hfirst, htables⟩ := hevent
      obtain ⟨reads', hrest, htables'⟩ := ih hfirst
      refine ⟨reads ++ reads', ?_, htables'.trans htables⟩
      rw [ReportLoops.receiveAll, List.foldl_append]
      exact hrest

/-- **An iteration of `epbs_host_status`** does what `readHosts` does for its reads. -/
theorem epbsHostStatus_reads {x : ReportLoops} (hio : io.Whole)
    (hs : s.Keeps (x.hostBuffer, x.hostRecvSize)) (htables : s.tables = some x.srv) :
    ∃ reads, (epbsHostStatus (h.withReports now) io s).tables =
        (x.readHosts reads).map (·.srv) ∧
      (epbsHostStatus (h.withReports now) io s).Keeps
        (ReportLoops.receiveAll reads (x.hostBuffer, x.hostRecvSize)) := by
  have hiterate : ∃ reads, (iterate true epbsHostStatusSocket io s).Keeps
        (ReportLoops.receiveAll reads (x.hostBuffer, x.hostRecvSize)) ∧
      (iterate true epbsHostStatusSocket io s).tables = s.tables := by
    rw [iterate]
    simp only [if_true]
    have hselected : ∀ t : ETransfer, ({ s with transfer := t } : ServiceLoop _).Keeps
        (x.hostBuffer, x.hostRecvSize) := fun t => ⟨hs.buffer, hs.size⟩
    split_ifs
    · exact (hselected _).foldl hio _
    · exact (hselected _).foldl hio []
  obtain ⟨reads, hkeeps, hsame⟩ := hiterate
  refine ⟨reads, ?_, ?_⟩
  · rw [epbsHostStatus, hkeeps.size, ReportLoops.readHosts]
    simp only
    split_ifs with hpos
    · show (iterate true epbsHostStatusSocket io s).tables.bind (hostStatusReport
        (iterate true epbsHostStatusSocket io s).recvBuffer) = _
      rw [hsame, htables, hkeeps.buffer, Option.map_map]
      exact Option.map_id_apply.symm
    · exact hsame.trans htables
  · rw [epbsHostStatus]
    split_ifs
    · exact ⟨hkeeps.buffer, hkeeps.size⟩
    · exact hkeeps

end HostStatus

end ServiceLoop

/-! ### The law -/

/-- What a step may do to the tables: a result report is applied in full, and a read that gave no
report changes nothing. -/
inductive Effect (x : ReportLoops) : ReportStep → ReportLoops → Prop
  | applied {bytes : {bytes : Bytes // 24 ≤ bytes.length ∧ bytes.length ≤ msgBuffSize}} {now : ℤ}
      {msg : Msg} {x' : ReportLoops} (hmsg : reportAt bytes.1 = some msg)
      (happlied : jobQueueResult1 now msg x.srv = some x'.srv) :
      Effect x (.result (.report bytes) now) x'
  | nothing {r : Read} {now : ℤ} {x' : ReportLoops} (hr : r.isReport = false)
      (hsrv : x'.srv = x.srv) : Effect x (.result r now) x'
  | hosts {reads : List Read} {x' : ReportLoops}
      (hhosts : x'.srv = { x.srv with hostq := x'.srv.hostq })
      (hsrv : (∀ r ∈ reads, r.isReport = false) → x'.srv = x.srv) : Effect x (.hosts reads) x'
  | others {srv : Server} {x' : ReportLoops} : Effect x (.others srv) x'

/-- **No report, no effect**: a step that reads no report leaves the tables, a complete result
report is applied by the step that reads it, a host report leaves the job tables and `pcstat`;
and the reports counted down are the reports received, each once. -/
structure Lawful (x : ReportLoops) (l : ReportStep) (x' : ReportLoops) : Prop where
  effect : Effect x l x'
  once : x'.counted = x'.received

/-- A failed read of `job_queue_result_1` finds no FINISHED report in its buffer. -/
def noStaleReport (x : ReportLoops) : ReportStep → Prop
  | .result r _ => r.isReport = false → finishedReport x.resultBuffer.1 = none
  | .hosts _ | .others _ => True

/-- What holds between two steps, as long as no stale report was counted down: the report
that `epbs_host_status` goes on applying changes nothing any more. -/
structure ReportLoops.Inv (x : ReportLoops) : Prop where
  once : x.counted = x.received
  stale : 0 < x.hostRecvSize → hostStatusReport x.hostBuffer.1 x.srv = some x.srv

/-- There is no FINISHED report exactly when the tables stay as they are. -/
lemma finishedReport_eq_none_iff {buf : Bytes} {now : ℤ} {s s' : Server}
    (h : jobResultReport now buf s = some s') : finishedReport buf = none ↔ s' = s := by
  obtain ⟨msg, hmsg, h⟩ := Option.bind_eq_some_iff.mp h
  have hself : s' = s ↔ jobQueueResult1 now msg s = some s := by
    rw [h, Option.some.injEq]
  rw [hself, jobQueueResult1_eq_self_iff, finishedReport, hmsg, Option.filter_eq_none_iff]
  simp

/-- A host report applied again changes nothing. -/
lemma hostStatusReport_again {buf : Bytes} {s s' : Server}
    (h : hostStatusReport buf s = some s') : hostStatusReport buf s' = some s' := by
  obtain ⟨msg, hmsg, h⟩ := Option.bind_eq_some_iff.mp h
  rw [hostStatusReport, hmsg]
  exact (epbsHostStatus_cases h).2.2

/-- A host report that changes nothing goes on changing nothing with the same host list. -/
lemma hostStatusReport_congr {buf : Bytes} {s s' : Server} (hhostq : s'.hostq = s.hostq)
    (h : hostStatusReport buf s = some s) : hostStatusReport buf s' = some s' := by
  obtain ⟨msg, hmsg, h⟩ := Option.bind_eq_some_iff.mp h
  rw [hostStatusReport, hmsg]
  exact epbsHostStatus_eq_self_congr hhostq h

namespace ReportLoops

/-- Failed reads leave the buffer, and no positive `recv_size` but the one that was there. -/
lemma receiveAll_failed {reads : List Read} (h : ∀ r ∈ reads, r.isReport = false)
    (kept : RecvBuffer × ℤ) :
    (receiveAll reads kept).1 = kept.1 ∧
      (0 < (receiveAll reads kept).2 → receiveAll reads kept = kept) := by
  induction reads generalizing kept with
  | nil => exact ⟨rfl, fun _ => rfl⟩
  | cons r reads ih =>
      obtain ⟨hr, hreads⟩ := List.forall_mem_cons.mp h
      have hbuffer := kept.1.recv_of_failed hr
      obtain ⟨hfirst, hsecond⟩ := ih hreads (kept.1.recv r.bytes, r.size)
      refine ⟨hfirst.trans hbuffer, fun hpos => ?_⟩
      -- the result of the last failed read is not positive
      have hkept : receiveAll reads (kept.1.recv r.bytes, r.size) =
          (kept.1.recv r.bytes, r.size) := hsecond hpos
      have hsize : 0 < r.size := by
        have hlast : (receiveAll reads (kept.1.recv r.bytes, r.size)).2 = r.size :=
          congrArg Prod.snd hkept
        rw [← hlast]
        exact hpos
      rw [r.size_pos_iff, hr] at hsize
      cases hsize

section Steps

variable {resultBuffer hostBuffer : RecvBuffer} {ips : ℤ → Bytes} {x x' : ReportLoops}

/-- A read of `job_queue_result_1` is lawful if it finds no stale report. -/
lemma lawful_readResult_iff {r : Read} {now : ℤ} (hx : x.Inv)
    (h : x.readResult r now = some x') :
    Lawful x (.result r now) x' ↔ noStaleReport x (.result r now) := by
  obtain ⟨srv, hsrv, rfl⟩ := Option.map_eq_some_iff.mp h
  by_cases hr : r.isReport = true
  · obtain ⟨bytes, rfl⟩ : ∃ bytes, r = .report bytes := by
      cases r with
      | report bytes => exact ⟨bytes, rfl⟩
      | closed | failed => cases hr
    have hsame := x.resultBuffer.reportAt_recv bytes
    refine ⟨fun _ hfailed => (by cases hfailed), fun _ => ⟨?_, ?_⟩⟩
    · obtain ⟨msg, hmsg, happlied⟩ := Option.bind_eq_some_iff.mp hsrv
      exact .applied (hsame.symm.trans hmsg) happlied
    · show (finishedReport (x.resultBuffer.recv bytes.1).1).toList ++ x.counted =
        (finishedReport bytes.1).toList ++ x.received
      rw [finishedReport, hsame, ← finishedReport, hx.once]
  · have hfailed := Bool.eq_false_iff.mpr hr
    rw [x.resultBuffer.recv_of_failed hfailed] at hsrv
    have hstale := finishedReport_eq_none_iff hsrv
    constructor
    · intro hlawful _
      cases hlawful.effect with
      | applied => cases hfailed
      | nothing _ hsame => exact hstale.mpr hsame
    · intro hguard
      refine ⟨.nothing hfailed (hstale.mp (hguard hfailed)), ?_⟩
      show (finishedReport (x.resultBuffer.recv r.bytes).1).toList ++ x.counted =
        (finishedReport r.bytes).toList ++ x.received
      rw [x.resultBuffer.recv_of_failed hfailed, hguard hfailed, Read.bytes_of_failed hfailed,
        hx.once]
      rfl

/-- An iteration of `epbs_host_status`: its reads, and the report that is applied then. -/
lemma readHosts_cases {reads : List Read} (h : x.readHosts reads = some x') :
    ∃ kept, kept = receiveAll reads (x.hostBuffer, x.hostRecvSize) ∧
      x' = { x with hostBuffer := kept.1, hostRecvSize := kept.2, srv := x'.srv } ∧
      if 0 < kept.2 then hostStatusReport kept.1.1 x.srv = some x'.srv else x'.srv = x.srv := by
  refine ⟨_, rfl, ?_⟩
  rw [readHosts] at h
  simp only at h
  split_ifs at h with hpos
  · obtain ⟨srv, hsrv, rfl⟩ := Option.map_eq_some_iff.mp h
    exact ⟨rfl, by rwa [if_pos hpos]⟩
  · cases h
    exact ⟨rfl, by rw [if_neg hpos]⟩

/-- **An iteration of `epbs_host_status` is lawful.** -/
lemma lawful_readHosts {reads : List Read} (hx : x.Inv) (h : x.readHosts reads = some x') :
    Lawful x (.hosts reads) x' := by
  obtain ⟨kept, hkept, hx', hsrv⟩ := readHosts_cases h
  refine ⟨.hosts ?_ fun hfailed => ?_, ?_⟩
  · split_ifs at hsrv with hpos
    · obtain ⟨msg, -, happlied⟩ := Option.bind_eq_some_iff.mp hsrv
      rw [(epbsHostStatus_cases happlied).2.1]
      rfl
    · rw [hsrv]
  · obtain ⟨-, hsame⟩ := receiveAll_failed hfailed (x.hostBuffer, x.hostRecvSize)
    rw [← hkept] at hsame
    split_ifs at hsrv with hpos
    · -- only the report of an earlier iteration is applied again
      rw [hsame hpos] at hsrv hpos
      rw [hx.stale hpos] at hsrv
      exact (Option.some.inj hsrv).symm
    · exact hsrv
  · rw [hx']
    exact hx.once

/-- Every lawful step keeps the invariant. -/
lemma Inv.step {l : ReportStep} (hx : x.Inv) (hl : Lawful x l x')
    (h : (reportLoops resultBuffer hostBuffer ips).step l x = some x') : x'.Inv := by
  refine ⟨hl.once, fun hpos => ?_⟩
  cases l with
  | result r now =>
      obtain ⟨srv, hsrv, rfl⟩ := Option.map_eq_some_iff.mp h
      obtain ⟨msg, -, happlied⟩ := Option.bind_eq_some_iff.mp hsrv
      exact hostStatusReport_congr (jobQueueResult1_hostq happlied) (hx.stale hpos)
  | hosts reads =>
      obtain ⟨kept, -, hx', hsrv⟩ := readHosts_cases h
      rw [hx'] at hpos ⊢
      rw [if_pos hpos] at hsrv
      exact hostStatusReport_again hsrv
  | others srv =>
      cases h
      have hhostq : ({ srv with hostq := x.srv.hostq } : Server).hostq = x.srv.hostq := rfl
      exact hostStatusReport_congr hhostq (hx.stale hpos)

/-- **A step is lawful** exactly when it counts no stale report down. -/
lemma lawful_iff {l : ReportStep} (hx : x.Inv)
    (h : (reportLoops resultBuffer hostBuffer ips).step l x = some x') :
    Lawful x l x' ↔ noStaleReport x l := by
  cases l with
  | result r now => exact lawful_readResult_iff hx h
  | hosts reads => exact iff_of_true (lawful_readHosts hx h) trivial
  | others srv =>
      cases h
      exact iff_of_true ⟨.others, hx.once⟩ trivial

lemma inv_init : (reportLoops resultBuffer hostBuffer ips).init.Inv :=
  ⟨rfl, fun hpos => absurd hpos (lt_irrefl _)⟩

end Steps

end ReportLoops

/-- Every step is lawful. -/
def lawfulStep (resultBuffer hostBuffer : RecvBuffer) (ips : ℤ → Bytes) (x : ReportLoops)
    (l : ReportStep) : Prop :=
  ∀ x', (reportLoops resultBuffer hostBuffer ips).step l x = some x' → Lawful x l x'

/-- **No report, no effect**: a run of reads, complete or failed in any order and whatever
the other threads do in between, is lawful in all its steps exactly when no failed read of
`job_queue_result_1` finds a FINISHED report in its receive buffer. -/
theorem no_report_no_effect_iff (resultBuffer hostBuffer : RecvBuffer) (ips : ℤ → Bytes)
    (ls : List ReportStep) :
    (reportLoops resultBuffer hostBuffer ips).GuardedRun
        (lawfulStep resultBuffer hostBuffer ips) ls
        (reportLoops resultBuffer hostBuffer ips).init ↔
      (reportLoops resultBuffer hostBuffer ips).GuardedRun noStaleReport ls
        (reportLoops resultBuffer hostBuffer ips).init := by
  refine Machine.guardedRun_congr_of_invariant (I := ReportLoops.Inv) ?_ ?_
    ReportLoops.inv_init ls
  · intro x l x' hx hstep
    constructor
    · intro hlawful
      exact (ReportLoops.lawful_iff hx hstep).mp (hlawful x' hstep)
    · intro hguard x'' hstep'
      exact (ReportLoops.lawful_iff hx hstep').mpr hguard
  · intro x l x' hx hguard hstep
    exact hx.step ((ReportLoops.lawful_iff hx hstep).mpr hguard) hstep

/-- A FINISHED report of the node 2 about the job 0, and then a connection that is closed
without a report. -/
def closedAfterReport : List ReportStep :=
  [.result (.report ⟨Words.encodeInts [msgTypeJobReturn, 2, 1, 0, 3, 0], by decide⟩) 0,
    .result .closed 0]

/-- The report is counted down twice. -/
theorem closed_connection_counts_down :
    ¬(reportLoops zeroBuffer zeroBuffer fun _ => []).GuardedRun
      (lawfulStep zeroBuffer zeroBuffer fun _ => []) closedAfterReport
      (reportLoops zeroBuffer zeroBuffer fun _ => []).init := by
  intro h
  have htwice : ((reportLoops zeroBuffer zeroBuffer fun _ => []).run closedAfterReport
      (reportLoops zeroBuffer zeroBuffer fun _ => []).init).any
        (fun x => x.counted ≠ x.received) = true := by
    decide +kernel
  obtain ⟨x, hrun, hne⟩ := (Option.any_eq_true _ _).mp htwice
  refine of_decide_eq_true hne (h.holds (P := fun x => x.counted = x.received) ?_ rfl hrun)
  exact fun x l x' hlawful hstep => (hlawful x' hstep).once

end Epbs
