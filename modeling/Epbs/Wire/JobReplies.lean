/-
The three job-status queries: what `job_monitor_etransfer` packs for them into its reply
buffer, and what `client_query_job_status` shows of the reply.

* `jobQueryReply`: the reply to the query of one job, of all jobs as an array, and of all
  jobs as records, `none` if a record leaves the buffer;
* `showJobs`: the rows that the client prints;
* `queryJobs`: a query and its reply;
* `QueriesAgree`: the three queries show the status in the table;
* `job_queries_agree_iff`: the jobs of which that is true.
-/
import Epbs.Cluster.Usage
import Epbs.Wire.Requests

namespace Epbs

open Words

/-! ### The reply -/

/-- A status word. -/
def JobStat.word (stat : JobStat) : CInt := ⟨stat.code, by cases stat <;> decide⟩

/-- The status that the loop over the slots finds for a job id. -/
def curJobStat (jobId : ℤ) (s : Server) : JobStat :=
  ((List.range maxJobQueue).find? fun i : ℕ => (s.jobq i).jobId = jobId).elim .unknow fun i =>
    (s.jobq i).jobStat

/-- The bytes of a slot in memory: `sizeof(batch_job_info)` is 344. -/
abbrev SlotImage := {bytes : Bytes // bytes.length = 344}

/-- **`MSG_TYPE_JOB_QUERY`** in `job_monitor_etransfer`: the writes into `send_buffer`.  The
records of a -2 query have no header before them. -/
def jobQueryReply (image : ℕ → SlotImage) (localId src jobId : ℤ) (sendBuffer : RecvBuffer)
    (s : Server) : Option Bytes :=
  if 0 ≤ jobId then
    putAll sendBuffer.1 (intWrites 0
      [msgTypeJobQuery, localId, src, jobId, (curJobStat jobId s).code])
  else if jobId = -1 then
    putAll sendBuffer.1 (intWrites 0 [msgTypeJobQuery, localId, src, jobId, 0] ++
      intWrites 24 ((List.range maxJobQueue).map fun i : ℕ => (s.jobq i).jobStat.code))
  else if jobId = -2 then
    putAll sendBuffer.1 ((List.range maxJobQueue).map fun i : ℕ =>
      ((24 + 344 * i : ℤ), (image i).1))
  else some sendBuffer.1

/-! ### The client -/

/-- The two columns of a row that tell the status of a job. -/
structure JobRow where
  jid : ℤ
  stat : ℤ
  deriving DecidableEq

/-- **`client_query_job_status`** on its receive buffer: the rows it prints for its query. -/
def showJobs (jobId : ℤ) (recvBuffer : Bytes) : Option (List JobRow) :=
  if -1 < jobId then do
    let getJobId ← intAt recvBuffer 12
    if getJobId ≠ jobId then return []
    else
      let getJobStat ← intAt recvBuffer 16
      return [⟨getJobId, getJobStat⟩]
  else if jobId = -1 then
    (List.range maxJobQueue).mapM fun i : ℕ =>
      (intAt recvBuffer (24 + 4 * i)).map fun stat => ⟨i + 1, stat⟩
  else if jobId = -2 then
    (List.range maxJobQueue).mapM fun i : ℕ => do
      let stat ← intAt recvBuffer (24 + 344 * i + 328)
      let jid ← intAt recvBuffer (24 + 344 * i + 332)
      let username ← cstrAt recvBuffer (24 + 344 * i + 256)
      let _ ← sprintf 32 username username.length
      return ⟨jid, stat⟩
  else some []

/-! ### A query and its reply -/

/-- What a query meets on its way: who sends it with which bytes of its header unset, the
buffers of the server and the slots in its memory, and the client's buffer behind the reply. -/
structure QueryPath where
  src : CInt
  localId : CInt
  unset : {bytes : Bytes // bytes.length = 8}
  monitorStale : RecvBuffer
  sendBuffer : RecvBuffer
  image : ℕ → SlotImage
  clientStale : {bytes : Bytes // bytes.length = 6000}

/-- **A query and its reply**: the server sends `MSG_BUFF_SIZE` bytes, and the client has
read them all when it prints the rows. -/
def queryJobs (q : QueryPath) (jobId : CInt) (s : Server) : Option (List JobRow) := do
  let request := (ClientRequest.query q.src jobId q.unset).encode
  match ← parseRequest (q.monitorStale.recv request).1 with
  | .query src id =>
      let reply ← jobQueryReply q.image q.localId src id q.sendBuffer s
      showJobs jobId (reply ++ q.clientStale.1)
  | _ => none

/-- The statuses shown for a job id. -/
def shownFor (jid : ℤ) (rows : Option (List JobRow)) : Option (List ℤ) :=
  rows.map fun rows => (rows.filter (·.jid = jid)).map (·.stat)

/-- A job id that names a slot. -/
abbrev JobId := {j : ℤ // inTable maxJobQueue j}

/-- A job id is an `int`. -/
def JobId.word (j : JobId) : CInt :=
  ⟨j.1, by
    have hlow : 0 ≤ j.1 := j.2.1
    have hhigh : j.1 < 32 := j.2.2
    omega⟩

/-- **The three job-status queries agree** with the table about the job `j`: one row is shown
for it, with its status; the records are asked about a used slot only. -/
structure QueriesAgree (q : QueryPath) (j : JobId) (s : Server) : Prop where
  single : shownFor j (queryJobs q j.word s) = some [(s.jobq j).jobStat.code]
  array : shownFor j (queryJobs q ⟨-1, by decide⟩ s) = some [(s.jobq j).jobStat.code]
  records : (s.jobq j).jobId ≠ -1 →
    shownFor j (queryJobs q ⟨-2, by decide⟩ s) = some [(s.jobq j).jobStat.code]

section Replies

variable {q : QueryPath} {s : Server} {j : JobId}

/-- The query is read as it was sent. -/
lemma queryJobs_eq (q : QueryPath) (jobId : CInt) (s : Server) :
    queryJobs q jobId s =
      (jobQueryReply q.image q.localId q.src jobId q.sendBuffer s).bind fun reply =>
        showJobs jobId (reply ++ q.clientStale.1) := by
  have hlen : (ClientRequest.query q.src jobId q.unset).encode.length ≤ msgBuffSize := by
    simp only [ClientRequest.encode, List.length_append, length_encodeInts, q.unset.2]
    show 4 * 4 + 8 ≤ 2000
    norm_num
  simp only [queryJobs, RecvBuffer.recv_of_le _ hlen, parseRequest_encode hlen,
    ClientRequest.request, Option.bind_eq_bind, Option.bind_some]

/-- The loop over the slots finds the slot with that number, if it was used. -/
lemma curJobStat_eq {m : Master} (h : Usage m) (j : JobId) :
    curJobStat j m.srv = (m.srv.jobq j).jobStat := by
  have hlow := j.2.1
  have hhigh := j.2.2
  have hj : (j.1.toNat : ℤ) = j := Int.toNat_of_nonneg hlow
  rw [curJobStat]
  cases hfind : (List.range maxJobQueue).find? fun i : ℕ => (m.srv.jobq i).jobId = j with
  | none =>
      rw [List.find?_eq_none] at hfind
      have hnot := hfind _ (List.mem_range.mpr (by omega : j.1.toNat < maxJobQueue))
      rw [hj, decide_eq_true_eq] at hnot
      have hle : (m.accepted : ℤ) ≤ j := by
        by_contra hlt
        exact hnot (h.used j j.2 (not_le.mp hlt)).1
      exact (h.unused j j.2 hle).2.1.symm
  | some i =>
      have hfound : (m.srv.jobq i).jobId = j := by simpa using List.find?_some hfind
      have hrange := List.mem_range.mp (List.mem_of_find?_eq_some hfind)
      have hin : inTable maxJobQueue i := ⟨Int.natCast_nonneg i, by exact_mod_cast hrange⟩
      have hused : (i : ℤ) < m.accepted := by
        by_contra hle
        have hnone := (h.jobId_eq_iff hin).mpr (not_lt.mp hle)
        omega
      rw [Option.elim_some, ← hfound, (h.used i hin hused).1]

/-- The reply to the query of one job, word by word. -/
lemma jobQueryReply_single (image : ℕ → SlotImage) (localId src jobId : CInt)
    (sendBuffer : RecvBuffer) (s : Server) (h : 0 ≤ jobId.1) :
    ∃ reply, jobQueryReply image localId src jobId sendBuffer s = some reply ∧
      ∀ (k : ℕ) (n : CInt),
        [msgTypeJobQuery, localId.1, src, jobId, (curJobStat jobId s).code][k]? = some n.1 →
          intAt reply (4 * k) = some n.1 := by
  let words : List ℤ := [msgTypeJobQuery, localId, src, jobId, (curJobStat jobId s).code]
  have hreply : ∃ reply, putAll sendBuffer.1 (intWrites 0 words) = some reply := by
    refine Option.isSome_iff_exists.mp (putAll_isSome_iff.mpr fun w hw => ?_)
    have hbounds := bounds_intWrites hw
    rw [sendBuffer.2, msgBuffSize]
    simp only [words, List.length_cons, List.length_nil] at hbounds
    omega
  obtain ⟨reply, hreply⟩ := hreply
  refine ⟨reply, by rw [jobQueryReply, if_pos h]; exact hreply, fun k n hn => ?_⟩
  have hread := intAt_putAll hreply (pairwise_intWrites 0 words) (mem_intWrites hn 0)
  rwa [zero_add] at hread

/-- The query of one job shows the status that the loop finds. -/
lemma shownFor_single (q : QueryPath) (j : JobId) (s : Server) :
    shownFor j (queryJobs q j.word s) = some [(curJobStat j s).code] := by
  have hlow := j.2.1
  obtain ⟨reply, hquery, hword⟩ :=
    jobQueryReply_single q.image q.localId q.src j.word q.sendBuffer s hlow
  have hid : intAt (reply ++ q.clientStale.1) 12 = some j.1 :=
    intAt_append (hword 3 j.word rfl) _
  have hstat : intAt (reply ++ q.clientStale.1) 16 = some (curJobStat j s).code :=
    intAt_append (hword 4 (curJobStat j s).word rfl) _
  have hshow : showJobs j.word (reply ++ q.clientStale.1) = some [⟨j, (curJobStat j s).code⟩] := by
    rw [showJobs, if_pos (show -1 < j.word.1 from by show -1 < j.1; omega), hid, hstat]
    simp [JobId.word]
  rw [queryJobs_eq, hquery, Option.bind_some, hshow, shownFor]
  simp

/-- **The query of all jobs** shows the status of a slot one row further down. -/
lemma queryJobs_array (q : QueryPath) (s : Server) :
    queryJobs q ⟨-1, by decide⟩ s =
      some ((List.range maxJobQueue).map fun i : ℕ => ⟨i + 1, (s.jobq i).jobStat.code⟩) := by
  let head : List ℤ := [msgTypeJobQuery, q.localId, q.src, -1, 0]
  let stats : List ℤ := (List.range maxJobQueue).map fun i : ℕ => (s.jobq i).jobStat.code
  have hhead : ∀ w ∈ intWrites 0 head, 0 ≤ w.1 ∧ w.1 + w.2.length ≤ 24 := by
    intro w hw
    have hin := bounds_intWrites hw
    simp only [head, List.length_cons, List.length_nil] at hin
    omega
  have hstats : ∀ w ∈ intWrites 24 stats, 24 ≤ w.1 ∧ w.1 + w.2.length ≤ q.sendBuffer.1.length := by
    intro w hw
    have hin := bounds_intWrites hw
    simp only [stats, List.length_map, List.length_range, maxJobQueue] at hin
    rw [q.sendBuffer.2, msgBuffSize]
    omega
  have hle : (24 : ℤ) ≤ q.sendBuffer.1.length := by
    rw [q.sendBuffer.2, msgBuffSize]
    norm_num
  obtain ⟨reply, hreply, hapart⟩ := exists_putAll_append (pairwise_intWrites 0 head)
    (pairwise_intWrites 24 stats) (by norm_num) hle hhead hstats
  have hquery : jobQueryReply q.image q.localId q.src (-1) q.sendBuffer s = some reply := by
    rw [jobQueryReply, if_neg (by norm_num), if_pos rfl]
    exact hreply
  rw [queryJobs_eq, hquery, Option.bind_some, showJobs, if_neg (by norm_num), if_pos rfl]
  refine mapM_eq_some fun i hi => ?_
  have hstat : stats[i]? = some (s.jobq i).jobStat.word.1 := by
    rw [List.getElem?_map, List.getElem?_range (List.mem_range.mp hi)]
    rfl
  rw [intAt_append (intAt_putAll hreply hapart
    (List.mem_append_right _ (mem_intWrites hstat 24))) _]
  rfl

/-- The row of a job shows the slot before its own. -/
lemma shownFor_array (q : QueryPath) (j : JobId) (s : Server) :
    shownFor j (queryJobs q ⟨-1, by decide⟩ s) =
      some (if 1 ≤ j.1 then [(s.jobq (j - 1)).jobStat.code] else []) := by
  have hlabel : ((List.range maxJobQueue).filter fun i : ℕ => (i : ℤ) + 1 = j) =
      if 1 ≤ j.1 then [(j.1 - 1).toNat] else [] := by
    have hhigh := j.2.2
    rw [filter_range_succ]
    exact if_congr (and_iff_left hhigh.le) rfl rfl
  rw [queryJobs_array, shownFor, Option.map_some, List.filter_map, List.map_map]
  show some (((List.range maxJobQueue).filter fun i : ℕ => (i : ℤ) + 1 = j).map
    fun i : ℕ => (s.jobq i).jobStat.code) = _
  rw [hlabel]
  split_ifs with hj
  · rw [List.map_singleton, Int.toNat_of_nonneg (by omega)]
  · rfl

/-- The records do not fit the reply. -/
lemma queryJobs_records (q : QueryPath) (s : Server) :
    queryJobs q ⟨-2, by decide⟩ s = none := by
  have hreply : jobQueryReply q.image q.localId q.src (-2) q.sendBuffer s = none := by
    rw [jobQueryReply, if_neg (by norm_num), if_neg (by norm_num), if_pos rfl]
    refine Option.not_isSome_iff_eq_none.mp fun hfits => ?_
    -- the sixth record ends behind the buffer
    have hlast := (putAll_isSome_iff.mp hfits _
      (List.mem_map_of_mem (List.mem_range.mpr (by decide : 5 < maxJobQueue)))).2
    rw [(q.image 5).2, q.sendBuffer.2, msgBuffSize] at hlast
    norm_num at hlast
  rw [queryJobs_eq, hreply, Option.bind_none]

end Replies

/-- **The three job-status queries agree** about a job, in every table the master reaches,
exactly when its slot and the slot before it were never used. -/
theorem job_queries_agree_iff {numHosts : ℤ} {ips : ℤ → Bytes} {m : Master}
    (h : (masterMachine numHosts ips).Reach Machine.always m) (q : QueryPath) (j : JobId) :
    QueriesAgree q j m.srv ↔ 1 ≤ j.1 ∧ (m.srv.jobq (j - 1)).jobId = -1 := by
  have husage := usage_of_reach h
  constructor
  · intro hagree
    have harray := hagree.array
    rw [shownFor_array, Option.some.injEq] at harray
    split_ifs at harray with hj
    · have hunused : (m.srv.jobq j).jobId = -1 := by
        by_contra hused
        have hrecords := hagree.records hused
        rw [queryJobs_records] at hrecords
        cases hrecords
      have hle := (husage.jobId_eq_iff j.2).mp hunused
      have hbefore : inTable maxJobQueue (j.1 - 1) := ⟨by omega, by have hhigh := j.2.2; omega⟩
      refine ⟨hj, (husage.jobId_eq_iff hbefore).mpr ?_⟩
      -- a used slot has a status, and the job in `j` has none
      by_contra hlt
      have hsame := JobStat.code_injective (List.cons.inj harray).1
      exact (husage.used _ hbefore (not_le.mp hlt)).2 (hsame.trans (husage.unused j j.2 hle).2.1)
  · rintro ⟨hj, hnone⟩
    have hbefore : inTable maxJobQueue (j.1 - 1) := ⟨by omega, by have hhigh := j.2.2; omega⟩
    have hle := (husage.jobId_eq_iff hbefore).mp hnone
    obtain ⟨hunused, hstat, -⟩ := husage.unused j j.2 (by omega)
    refine ⟨?_, ?_, fun hused => absurd hunused hused⟩
    · rw [shownFor_single, curJobStat_eq husage]
    · rw [shownFor_array, if_pos hj, hstat, (husage.unused _ hbefore hle).2.1]

/-- A path with buffers of zeros. -/
def zeroPath : QueryPath where
  src := CInt.one
  localId := CInt.one
  unset := zeros 8
  monitorStale := zeroBuffer
  sendBuffer := zeroBuffer
  image := fun _ => zeros 344
  clientStale := zeros 6000

/-- After a SUBMIT the queries agree about the job 2, and not about the job 1: its row shows the
slot of the job 0. -/
theorem job_queries_agree_iff_submitted : ∃ m,
    (masterMachine 1 fun _ => []).run [.submit ⟨1, [97], 2, 1, [117], 2⟩ 0]
        (masterMachine 1 fun _ => []).init = some m ∧
      (m.srv.jobq 0).jobStat = .inqueue ∧
      QueriesAgree zeroPath ⟨2, by decide⟩ m.srv ∧ ¬QueriesAgree zeroPath ⟨1, by decide⟩ m.srv := by
  have hrun : ((masterMachine 1 fun _ => []).run [.submit ⟨1, [97], 2, 1, [117], 2⟩ 0]
      (masterMachine 1 fun _ => []).init).any (fun m =>
        decide ((m.srv.jobq 0).jobStat = .inqueue ∧ (m.srv.jobq (2 - 1)).jobId = -1 ∧
          (m.srv.jobq (1 - 1)).jobId = 0)) = true := by decide +kernel
  obtain ⟨m, hm, hp⟩ := (Option.any_eq_true _ _).mp hrun
  obtain ⟨hstat, hunused, hused⟩ := of_decide_eq_true hp
  have hreach := Machine.reach_of_run hm
  refine ⟨m, hm, hstat, ?_, fun hagree => ?_⟩
  · exact (job_queries_agree_iff hreach zeroPath ⟨2, by decide⟩).mpr ⟨by decide, hunused⟩
  · have hnone := ((job_queries_agree_iff hreach zeroPath ⟨1, by decide⟩).mp hagree).2
    rw [hused] at hnone
    cases hnone

/-- No row is labelled with the job 0. -/
theorem job_zero_has_no_row :
    (masterMachine 1 fun _ => []).Reach Machine.always (.init fun _ => []) ∧
      ¬QueriesAgree zeroPath ⟨0, by decide⟩ (Master.init fun _ => []).srv := by
  refine ⟨.init, fun h => ?_⟩
  have harray := h.array
  rw [shownFor_array, if_neg (by norm_num)] at harray
  cases harray

end Epbs
