/-
The reports of the nodes in bytes.

* `reportAt`: the report in a receive buffer;
* `jobResultReport`, `hostStatusReport`: what `job_queue_result_1` and `epbs_host_status`
  do with their receive buffer once `recv` has returned, `none` if an index leaves its
  table;
* `jobQueueResult1_eq_self_iff`, `epbsHostStatus_eq_self_iff`: the reports that leave the
  tables as they are;
* `Contained`: the indices stay inside the tables, and a report that names nothing changes
  nothing;
* `reports_contained_iff`: the reports of which that is true.
-/
import Epbs.Machine.Words
import Epbs.Server.Master

namespace Epbs

open Words

/-! ### The words of a report -/

/-- **The report in a receive buffer**: `type`, `src`, `dist`, and the two words that
`job_queue_result_1` calls `job_id` and `job_relt`, and `epbs_host_status` `host_id` and
`host_status`. -/
def reportAt (recvBuffer : Bytes) : Option Msg := do
  let type ← intAt recvBuffer 0
  let src ← intAt recvBuffer 4
  let dist ← intAt recvBuffer 8
  let m1 ← intAt recvBuffer 12
  let m2 ← intAt recvBuffer 16
  return ⟨type, src, dist, m1, m2, []⟩

/-- A report is five words. -/
lemma reportAt_isSome {buf : Bytes} (h : 20 ≤ buf.length) : ∃ msg, reportAt buf = some msg := by
  have hword : ∀ off : ℕ, off + 4 ≤ 20 → ∃ n, intAt buf off = some n := by
    intro off hoff
    exact Option.isSome_iff_exists.mp (intAt_isSome_iff.mpr ⟨by omega, by omega⟩)
  obtain ⟨type, htype⟩ := hword 0 (by norm_num)
  obtain ⟨src, hsrc⟩ := hword 4 (by norm_num)
  obtain ⟨dist, hdist⟩ := hword 8 (by norm_num)
  obtain ⟨m1, hm1⟩ := hword 12 (by norm_num)
  obtain ⟨m2, hm2⟩ := hword 16 (by norm_num)
  refine ⟨⟨type, src, dist, m1, m2, []⟩, ?_⟩
  norm_cast at htype hsrc hdist hm1 hm2
  simp only [reportAt, htype, hsrc, hdist, hm1, hm2, Option.bind_eq_bind, Option.bind_some,
    Option.pure_def]

/-- Bytes behind a report do not matter. -/
lemma reportAt_append {buf : Bytes} {msg : Msg} (h : reportAt buf = some msg) (rest : Bytes) :
    reportAt (buf ++ rest) = some msg := by
  obtain ⟨type, htype, h⟩ := Option.bind_eq_some_iff.mp h
  obtain ⟨src, hsrc, h⟩ := Option.bind_eq_some_iff.mp h
  obtain ⟨dist, hdist, h⟩ := Option.bind_eq_some_iff.mp h
  obtain ⟨m1, hm1, h⟩ := Option.bind_eq_some_iff.mp h
  obtain ⟨m2, hm2, h⟩ := Option.bind_eq_some_iff.mp h
  cases h
  simp only [reportAt, intAt_append htype, intAt_append hsrc, intAt_append hdist,
    intAt_append hm1, intAt_append hm2, Option.bind_eq_bind, Option.bind_some, Option.pure_def]

/-- The last word of a report is an `int`. -/
lemma reportAt_m2_mem {buf : Bytes} {msg : Msg} (h : reportAt buf = some msg) :
    -2147483648 ≤ msg.m2 ∧ msg.m2 < 2147483648 := by
  obtain ⟨_, -, h⟩ := Option.bind_eq_some_iff.mp h
  obtain ⟨_, -, h⟩ := Option.bind_eq_some_iff.mp h
  obtain ⟨_, -, h⟩ := Option.bind_eq_some_iff.mp h
  obtain ⟨_, -, h⟩ := Option.bind_eq_some_iff.mp h
  obtain ⟨m2, hm2, h⟩ := Option.bind_eq_some_iff.mp h
  cases h
  exact intAt_mem hm2

/-- `job_queue_result_1` on its receive buffer. -/
def jobResultReport (now : ℤ) (recvBuffer : Bytes) (s : Server) : Option Server :=
  (reportAt recvBuffer).bind fun msg => jobQueueResult1 now msg s

/-- `epbs_host_status` on its receive buffer. -/
def hostStatusReport (recvBuffer : Bytes) (s : Server) : Option Server :=
  (reportAt recvBuffer).bind fun msg => epbsHostStatus msg s

/-! ### What a report changes -/

section Report

variable {now : ℤ} {msg : Msg} {s : Server}

/-- The tables that a result report indexes. -/
lemma jobQueueResult1_isSome_iff :
    (jobQueueResult1 now msg s).isSome ↔
      (msg.m2 = JobStat.finished.code →
        inTable maxNumHosts msg.src ∧ inTable maxJobQueue msg.m1) := by
  rw [jobQueueResult1]
  simp only
  split_ifs with hm2 hin <;> simp [*]

/-- **A result report changes the tables** if it says FINISHED, and only then: the counter of
its job goes down. -/
lemma jobQueueResult1_eq_self_iff :
    jobQueueResult1 now msg s = some s ↔ msg.m2 ≠ JobStat.finished.code := by
  constructor
  · intro h hm2
    rw [jobQueueResult1, if_pos hm2] at h
    have hcount : ∀ s', s'.jobnodes = (s.countDown msg.src msg.m1).jobnodes → s' ≠ s := by
      rintro s' hjobnodes rfl
      have hown := congrFun hjobnodes msg.m1
      rw [countDown_jobnodes, Function.update_self] at hown
      omega
    simp only at h
    split_ifs at h with hin hlast
    · exact hcount _ (finish_jobnodes ..) (Option.some.inj h)
    · exact hcount _ rfl (Option.some.inj h)
  · intro hm2
    rw [jobQueueResult1, if_neg hm2]

/-- The table that a host report indexes. -/
lemma epbsHostStatus_isSome_iff :
    (epbsHostStatus msg s).isSome ↔ inTable (maxNumHosts + 1) msg.m1 := by
  rw [epbsHostStatus]
  split_ifs with hin <;> simp [hin]

/-- **A host report changes the tables** unless its host has that status already. -/
lemma epbsHostStatus_eq_self_iff :
    epbsHostStatus msg s = some s ↔
      inTable (maxNumHosts + 1) msg.m1 ∧ (s.hostq msg.m1).hostStat = msg.m2 := by
  rw [epbsHostStatus]
  split_ifs with hin
  · rw [Option.some.injEq, and_iff_right hin]
    constructor
    · intro h
      have hown := congrArg (fun s' => (s'.hostq msg.m1).hostStat) h
      simp only [Server.setHostStat_hostq, Function.update_self] at hown
      exact hown.symm
    · intro h
      have hown : { s.hostq msg.m1 with hostStat := msg.m2 } = s.hostq msg.m1 := by rw [← h]
      rw [Server.setHostStat, hown, Function.update_eq_self]
  · exact ⟨fun hc => (by cases hc), fun hc => absurd hc.1 hin⟩

/-- A result report leaves the host list. -/
lemma jobQueueResult1_hostq {s' : Server} (h : jobQueueResult1 now msg s = some s') :
    s'.hostq = s.hostq := by
  rw [jobQueueResult1] at h
  simp only at h
  split_ifs at h <;> cases h <;> rfl

/-- **A host report** sets one status, and applied again it changes nothing. -/
lemma epbsHostStatus_cases {s' : Server} (h : epbsHostStatus msg s = some s') :
    inTable (maxNumHosts + 1) msg.m1 ∧ s' = s.setHostStat msg.m1 msg.m2 ∧
      epbsHostStatus msg s' = some s' := by
  have hin := epbsHostStatus_isSome_iff.mp (Option.isSome_of_eq_some h)
  rw [epbsHostStatus, if_pos hin, Option.some.injEq] at h
  refine ⟨hin, h.symm, epbsHostStatus_eq_self_iff.mpr ⟨hin, ?_⟩⟩
  rw [← h, Server.setHostStat_hostq, Function.update_self]

/-- Whether a host report changes the tables is up to the host list. -/
lemma epbsHostStatus_eq_self_congr {s' : Server} (hhostq : s'.hostq = s.hostq)
    (h : epbsHostStatus msg s = some s) : epbsHostStatus msg s' = some s' := by
  rw [epbsHostStatus_eq_self_iff] at h ⊢
  rwa [hhostq]

end Report

/-! ### Reports of any bytes -/

/-- A report is contained: its indices stay inside the tables, and if it names nothing it
leaves them unchanged. -/
structure Contained (named : Prop) (s : Server) (handled : Option Server) : Prop where
  inside : handled.isSome
  unchanged : ¬named → handled = some s

/-- A configured host. -/
def configuredHost (numHosts i : ℤ) : Prop := 1 ≤ i ∧ i ≤ numHosts

section Containment

variable (numHosts now : ℤ) (msg : Msg) (s : Server)

/-- The result reports that are contained. -/
lemma contained_jobQueueResult1_iff :
    Contained (configuredHost numHosts msg.src ∧ inTable maxJobQueue msg.m1) s
        (jobQueueResult1 now msg s) ↔
      (msg.m2 = JobStat.finished.code → inTable maxNumHosts msg.src ∧
        configuredHost numHosts msg.src ∧ inTable maxJobQueue msg.m1) := by
  constructor
  · rintro ⟨hinside, hunchanged⟩ hm2
    obtain ⟨hsrc, hjob⟩ := jobQueueResult1_isSome_iff.mp hinside hm2
    refine ⟨hsrc, ?_⟩
    by_contra hnamed
    exact jobQueueResult1_eq_self_iff.mp (hunchanged hnamed) hm2
  · intro h
    refine ⟨jobQueueResult1_isSome_iff.mpr fun hm2 => ⟨(h hm2).1, (h hm2).2.2⟩, fun hnamed => ?_⟩
    exact jobQueueResult1_eq_self_iff.mpr fun hm2 => hnamed (h hm2).2

/-- The host reports that are contained. -/
lemma contained_epbsHostStatus_iff :
    Contained (configuredHost numHosts msg.src ∧ configuredHost numHosts msg.m1) s
        (epbsHostStatus msg s) ↔
      inTable (maxNumHosts + 1) msg.m1 ∧
        ((configuredHost numHosts msg.src ∧ configuredHost numHosts msg.m1) ∨
          (s.hostq msg.m1).hostStat = msg.m2) := by
  constructor
  · rintro ⟨hinside, hunchanged⟩
    refine ⟨epbsHostStatus_isSome_iff.mp hinside, or_iff_not_imp_left.mpr fun hnamed => ?_⟩
    exact (epbsHostStatus_eq_self_iff.mp (hunchanged hnamed)).2
  · rintro ⟨hin, hsame⟩
    refine ⟨epbsHostStatus_isSome_iff.mpr hin, fun hnamed => ?_⟩
    exact epbsHostStatus_eq_self_iff.mpr ⟨hin, hsame.resolve_left hnamed⟩

end Containment

/-- **Reports cannot index outside the tables**, and those that name no configured host or
no job slot leave the tables unchanged, for exactly these reports: a result report that does
not say FINISHED or names a configured host of the node tables and a job slot, and a host
report about an entry of the host list that names configured hosts or changes nothing. -/
theorem reports_contained_iff (buf : RecvBuffer) (received : Bytes) (numHosts now : ℤ)
    (s : Server) :
    ∃ msg, reportAt (buf.recv received).1 = some msg ∧
      (Contained (configuredHost numHosts msg.src ∧ inTable maxJobQueue msg.m1) s
          (jobResultReport now (buf.recv received).1 s) ↔
        (msg.m2 = JobStat.finished.code → inTable maxNumHosts msg.src ∧
          configuredHost numHosts msg.src ∧ inTable maxJobQueue msg.m1)) ∧
      (Contained (configuredHost numHosts msg.src ∧ configuredHost numHosts msg.m1) s
          (hostStatusReport (buf.recv received).1 s) ↔
        inTable (maxNumHosts + 1) msg.m1 ∧
          ((configuredHost numHosts msg.src ∧ configuredHost numHosts msg.m1) ∨
            (s.hostq msg.m1).hostStat = msg.m2)) := by
  have hlen : 20 ≤ (buf.recv received).1.length := by
    rw [(buf.recv received).2, msgBuffSize]
    norm_num
  obtain ⟨msg, hmsg⟩ := reportAt_isSome hlen
  refine ⟨msg, hmsg, ?_, ?_⟩
  · rw [jobResultReport, hmsg]
    exact contained_jobQueueResult1_iff numHosts now msg s
  · rw [hostStatusReport, hmsg]
    exact contained_epbsHostStatus_iff numHosts msg s

/-- A FINISHED report about the job 32. -/
def strayReport : Bytes := encodeInts [msgTypeJobReturn, 2, 1, 32, 3, 0]

/-- A stray report indexes outside the job tables. -/
theorem stray_report_not_contained :
    ¬Contained (configuredHost 2 2 ∧ inTable maxJobQueue 32) (configure fun _ => [])
      (jobResultReport 0 (zeroBuffer.recv strayReport).1 (configure fun _ => [])) :=
  fun h => absurd h.inside (by decide +kernel)

end Epbs
