/-
Host reports that `epbs_host_status` reads in batches: it keeps one buffer and one result,
and applies a report only after all the connections of an iteration were read.

* `HostReport`: a report about an entry of the host list, and its message;
* `lastStatus`: the status that a sequence of reports leaves a host with;
* `readHosts_batch`, `run_hostSteps`: an iteration applies the last report of its batch, and
  a run those of all its batches;
* `no_lost_status_iff`: the batches after which every host has the status of its last report.
-/
import Epbs.Transfer.Reports

namespace Epbs

open Words

/-- A host report: about an entry of the host list that the scheduler uses. -/
structure HostReport where
  src : CInt
  dist : CInt
  hostId : {i : ℤ // 1 ≤ i ∧ i ≤ maxNumHosts}
  hostStatus : CInt
  unset : {bytes : Bytes // bytes.length = 4}

namespace HostReport

/-- The message of a host report. -/
def encode (r : HostReport) : Bytes :=
  encodeInts [msgTypeHost, r.src, r.dist, r.hostId, r.hostStatus] ++ r.unset.1

lemma length_encode (r : HostReport) : r.encode.length = 24 := by
  rw [encode, List.length_append, length_encodeInts, r.unset.2]
  rfl

/-- The message is a whole report. -/
def message (r : HostReport) :
    {bytes : Bytes // 24 ≤ bytes.length ∧ bytes.length ≤ msgBuffSize} where
  val := r.encode
  property := by
    rw [length_encode]
    exact ⟨le_rfl, (by norm_num : 24 ≤ 2000)⟩

/-- A host report that is received whole. -/
def read (r : HostReport) : Read := .report r.message

/-- The report that is read. -/
lemma reportAt_message (r : HostReport) :
    reportAt r.message.1 = some ⟨msgTypeHost, r.src, r.dist, r.hostId, r.hostStatus, []⟩ := by
  have hbound : 1 ≤ r.hostId.1 ∧ r.hostId.1 ≤ 5 := r.hostId.2
  have hword : ∀ (k : ℕ) (w : CInt),
      [msgTypeHost, r.src.1, r.dist.1, r.hostId.1, r.hostStatus.1][k]? = some w.1 →
      intAt r.message.1 (4 * k : ℕ) = some w.1 :=
    fun k w hk => intAt_encodeInts hk _
  have htype := hword 0 ⟨msgTypeHost, by decide⟩ rfl
  have hsrc := hword 1 r.src rfl
  have hdist := hword 2 r.dist rfl
  have hid := hword 3 ⟨r.hostId.1, by omega⟩ rfl
  have hstatus := hword 4 r.hostStatus rfl
  norm_num at htype hsrc hdist hid hstatus
  simp only [reportAt, htype, hsrc, hdist, hid, hstatus, Option.bind_eq_bind, Option.bind_some,
    Option.pure_def]

end HostReport

/-- The status in the last report for a host, and without one the status it had. -/
def lastStatus (h : ℤ) (reports : List HostReport) (s : Server) : ℤ :=
  ((reports.filter (·.hostId.1 = h)).getLast?.map (·.hostStatus.1)).getD (s.hostq h).hostStat

/-- A first report is as good as the status it sets. -/
lemma lastStatus_cons (h : ℤ) (r : HostReport) (reports : List HostReport) (s : Server) :
    lastStatus h (r :: reports) s =
      lastStatus h reports (s.setHostStat r.hostId r.hostStatus) := by
  by_cases hr : r.hostId.1 = h
  · rw [lastStatus, List.filter_cons_of_pos (by simpa using hr), List.getLast?_cons, lastStatus,
      Server.setHostStat_hostq, hr, Function.update_self]
    cases (reports.filter (·.hostId.1 = h)).getLast? <;> rfl
  · rw [lastStatus, List.filter_cons_of_neg (by simpa using hr), lastStatus,
      Server.setHostStat_hostq, Function.update_of_ne (Ne.symm hr)]

/-- The iterations of `epbs_host_status` that read the batches. -/
def hostSteps (batches : List (List HostReport)) : List ReportStep :=
  batches.map fun batch => .hosts (batch.map HostReport.read)

/-- **No lost host-status update**: after all the reports every host has the status of its last
one. -/
def NoLostStatus (resultBuffer hostBuffer : RecvBuffer) (ips : ℤ → Bytes)
    (batches : List (List HostReport)) : Prop :=
  ∃ x, (reportLoops resultBuffer hostBuffer ips).run (hostSteps batches)
      (reportLoops resultBuffer hostBuffer ips).init = some x ∧
    ∀ h, (x.srv.hostq h).hostStat = lastStatus h batches.flatten (configure ips)

namespace ReportLoops

variable {x : ReportLoops}

/-- An iteration applies the last report of its batch. The buffer is the same for all reads, and
the tables are updated once, after the loop over the events. -/
lemma readHosts_batch (hx : x.Inv) (batch : List HostReport) :
    ∃ x', x.readHosts (batch.map HostReport.read) = some x' ∧ x'.Inv ∧
      x'.srv = batch.getLast?.elim x.srv fun r => x.srv.setHostStat r.hostId r.hostStatus := by
  suffices hread : ∃ x', x.readHosts (batch.map HostReport.read) = some x' ∧
      x'.srv = batch.getLast?.elim x.srv fun r => x.srv.setHostStat r.hostId r.hostStatus by
    obtain ⟨x', hstep, hsrv⟩ := hread
    exact ⟨x', hstep, hx.step (lawful_readHosts hx hstep)
      (show (reportLoops x.resultBuffer x.hostBuffer fun _ => []).step _ x = some x' from hstep),
      hsrv⟩
  rcases List.eq_nil_or_concat batch with rfl | ⟨before, r, rfl⟩
  · -- without a read, at most an earlier report is applied again
    rw [readHosts, List.map_nil, receiveAll, List.foldl_nil]
    simp only
    split_ifs with hpos
    · rw [hx.stale hpos]
      exact ⟨_, rfl, rfl⟩
    · exact ⟨_, rfl, rfl⟩
  · have hlast : ∃ buf : RecvBuffer,
        receiveAll ((before.concat r).map HostReport.read) (x.hostBuffer, x.hostRecvSize) =
          (buf.recv r.message.1, r.read.size) := by
      rw [List.concat_eq_append, List.map_append, receiveAll, List.foldl_append]
      exact ⟨_, rfl⟩
    obtain ⟨buf, hlast⟩ := hlast
    -- a report is a whole message, so the buffer holds it whatever was read before
    have hpos : 0 < r.read.size := r.read.size_pos_iff.mpr rfl
    have hreport : hostStatusReport (buf.recv r.message.1).1 x.srv =
        some (x.srv.setHostStat r.hostId r.hostStatus) := by
      have hin : inTable (maxNumHosts + 1) r.hostId.1 := by
        have hbound := r.hostId.2
        exact ⟨by omega, by push_cast; omega⟩
      rw [hostStatusReport, buf.reportAt_recv r.message, r.reportAt_message, Option.bind_some,
        epbsHostStatus, if_pos hin]
    rw [readHosts, hlast]
    simp only
    rw [if_pos hpos, hreport, List.concat_eq_append, List.getLast?_concat]
    exact ⟨_, rfl, rfl⟩

/-- **A run of batches** applies the last reports of the batches. -/
lemma run_hostSteps (resultBuffer hostBuffer : RecvBuffer) (ips : ℤ → Bytes) (hx : x.Inv)
    (batches : List (List HostReport)) :
    ∃ x', (reportLoops resultBuffer hostBuffer ips).run (hostSteps batches) x = some x' ∧
      ∀ h, (x'.srv.hostq h).hostStat =
        lastStatus h (batches.filterMap List.getLast?) x.srv := by
  induction batches generalizing x with
  | nil => exact ⟨x, rfl, fun h => rfl⟩
  | cons batch batches ih =>
      obtain ⟨x₁, hstep, hx₁, hsrv⟩ := readHosts_batch hx batch
      obtain ⟨x₂, hrun, hstat⟩ := ih hx₁
      refine ⟨x₂, (congrArg (Option.bind · _) hstep).trans hrun, fun h => ?_⟩
      rw [hstat, hsrv]
      cases hlast : batch.getLast? with
      | none => rw [List.filterMap_cons_none hlast, Option.elim_none]
      | some r => rw [List.filterMap_cons_some hlast, Option.elim_some, lastStatus_cons]

end ReportLoops

/-- **No host-status update is lost** exactly when, for every host, the last report says what
the last of its reports at the end of a batch says, or the start status if it has none. -/
theorem no_lost_status_iff (resultBuffer hostBuffer : RecvBuffer) (ips : ℤ → Bytes)
    (batches : List (List HostReport)) :
    NoLostStatus resultBuffer hostBuffer ips batches ↔
      ∀ h, lastStatus h batches.flatten (configure ips) =
        lastStatus h (batches.filterMap List.getLast?) (configure ips) := by
  obtain ⟨x, hrun, hstat⟩ :=
    ReportLoops.run_hostSteps resultBuffer hostBuffer ips ReportLoops.inv_init batches
  constructor
  · rintro ⟨x', hrun', hlast⟩ h
    cases hrun.symm.trans hrun'
    exact (hlast h).symm.trans (hstat h)
  · intro h
    exact ⟨x, hrun, fun host => (hstat host).trans (h host).symm⟩

/-- The report of a host that became BUSY. -/
def busyReport (host : {i : ℤ // 1 ≤ i ∧ i ≤ maxNumHosts}) : HostReport where
  src := CInt.one
  dist := CInt.one
  hostId := host
  hostStatus := ⟨HostStat.busy.code, by decide⟩
  unset := ⟨[0, 0, 0, 0], rfl⟩

/-- Of two reports in one batch the first is lost. -/
theorem batched_report_lost :
    ¬NoLostStatus zeroBuffer zeroBuffer (fun _ => [])
      [[busyReport ⟨2, by decide⟩, busyReport ⟨3, by decide⟩]] := by
  rintro ⟨x, hrun, hlast⟩
  obtain ⟨x', hrun', hstat⟩ := ReportLoops.run_hostSteps zeroBuffer zeroBuffer (fun _ => [])
    ReportLoops.inv_init [[busyReport ⟨2, by decide⟩, busyReport ⟨3, by decide⟩]]
  cases hrun.symm.trans hrun'
  have hsame := (hlast 2).symm.trans (hstat 2)
  exact absurd hsame (by decide +kernel)

end Epbs
