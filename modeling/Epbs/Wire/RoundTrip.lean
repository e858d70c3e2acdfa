/-
The two messages that carry a job, decoded to what was encoded.

* `InteractiveJob`, `interactiveJob`: all that `deal_interactive_job_request` takes from its
  receive buffer, and `dealJobRequest_eq`: the command among it;
* `interactiveJob_singleJobSubmit`: it takes what `server_single_job_submit` sent;
* `job_messages_round_trip`: the SUBMIT of a client and the datagram of the master.
-/
import Epbs.Wire.Command

namespace Epbs

open Words

/-- What a node takes from a submit message: the sender, the id and the command, with the length
that is read before it. -/
structure InteractiveJob where
  src : ℤ
  jobId : ℤ
  pcommLen : ℤ
  pcomm : Bytes

/-- **The reads of `deal_interactive_job_request`** in its receive buffer, and its write of a
NUL; not defined if one of them leaves the buffer. -/
def interactiveJob (recvBuffer : Bytes) : Option (Option InteractiveJob) := do
  let type ← intAt recvBuffer 0
  if type = msgTypeJobSubmit then
    let src ← intAt recvBuffer 4
    let _dist ← intAt recvBuffer 8
    let jobId ← intAt recvBuffer 12
    let pcommLen ← intAt recvBuffer 16
    let recvBuffer ← put recvBuffer (24 + pcommLen) [0]
    let pcomm ← cstrAt recvBuffer 24
    return some ⟨src, jobId, pcommLen, pcomm⟩
  else return none

/-- The command that runs is the one that is read. -/
lemma dealJobRequest_eq (recvBuffer : Bytes) :
    dealJobRequest recvBuffer = (interactiveJob recvBuffer).map (Option.map (·.pcomm)) := by
  simp only [dealJobRequest, interactiveJob, Option.bind_eq_bind, Option.map_bind]
  refine Option.bind_congr fun type _ => ?_
  rw [Function.comp_apply]
  by_cases htype : type = msgTypeJobSubmit
  · simp only [if_pos htype, Option.map_bind, Function.comp_def]
    rfl
  · rw [if_neg htype, if_neg htype]
    rfl

/-- **A node takes what the master sent** from any receive buffer with room for the datagram
and a byte behind it. -/
lemma interactiveJob_singleJobSubmit (localId remoteId jobId : CInt) {command : Bytes}
    (hnul : 0 ∉ command) (hlen : command.length + 25 < msgBuffSize)
    (unset : {bytes : Bytes // bytes.length = 4}) (stale : RecvBuffer) :
    interactiveJob (stale.recv (singleJobSubmitBytes localId remoteId command jobId unset)).1 =
      some (some ⟨localId, jobId, command.length + 1, command⟩) := by
  have hsize : msgBuffSize = 2000 := rfl
  obtain ⟨-, hword, written, hput, hcstr⟩ :=
    singleJobSubmit_received localId remoteId jobId hnul hlen unset stale
  have htype := hword 0 ⟨msgTypeJobSubmit, by decide⟩ rfl
  have hsrc := hword 1 localId rfl
  have hdist := hword 2 remoteId rfl
  have hid := hword 3 jobId rfl
  have hpcommLen := hword 4 ⟨command.length + 1, by omega⟩ rfl
  norm_num at htype hsrc hdist hid hpcommLen
  simp only [interactiveJob, htype, hsrc, hdist, hid, hpcommLen, hput, hcstr, Option.bind_eq_bind,
    Option.bind_some, if_true]
  rfl

lemma length_singleJobSubmitBytes (localId remoteId : ℤ) (command : Bytes) (jobId : ℤ)
    (unset : {bytes : Bytes // bytes.length = 4}) :
    (singleJobSubmitBytes localId remoteId command jobId unset).length = command.length + 25 := by
  simp only [singleJobSubmitBytes, List.length_append, length_encodeInts, unset.2,
    List.length_cons, List.length_nil]
  omega

/-- **The messages of a job decode to what was encoded**, whatever is behind them in the
receive buffer: the job monitor reads the SUBMIT of a client, and a node reads the datagram of
the master and writes its NUL inside the buffer. -/
theorem job_messages_round_trip (src dist numReqNodes localId remoteId jobId : CInt)
    (command username : CStr) (unset : {bytes : Bytes // bytes.length = 4}) (stale : RecvBuffer) :
    ((ClientRequest.submit src dist command numReqNodes username).encode.length < msgBuffSize →
      ∃ req, parseRequest (stale.recv
          (ClientRequest.submit src dist command numReqNodes username).encode).1 =
            some (.submit req) ∧
        req.src = src ∧ req.numReqNodes = numReqNodes ∧ req.commStr = command.1 ∧
        req.username = username.1) ∧
    ((singleJobSubmitBytes localId remoteId command jobId unset).length < msgBuffSize →
      ∃ job, interactiveJob (stale.recv
          (singleJobSubmitBytes localId remoteId command jobId unset)).1 = some (some job) ∧
        job.src = localId ∧ job.jobId = jobId ∧ job.pcomm = command.1 ∧
        0 ≤ 24 + job.pcommLen ∧ 24 + job.pcommLen < msgBuffSize) := by
  constructor
  · intro hlen
    rw [stale.recv_of_le hlen.le, parseRequest_encode hlen.le]
    exact ⟨_, rfl, rfl, rfl, rfl, rfl⟩
  · intro hlen
    rw [length_singleJobSubmitBytes] at hlen
    refine ⟨_, interactiveJob_singleJobSubmit localId remoteId jobId command.2 hlen unset stale,
      rfl, rfl, rfl, ?_, ?_⟩
    · positivity
    · show (24 + (command.1.length + 1) : ℤ) < msgBuffSize
      omega

/-- The command `ls` of the user `u`, behind zeros. -/
theorem job_messages_round_trip_ls :
    (∃ req, parseRequest (zeroBuffer.recv (ClientRequest.submit CInt.one CInt.one
          ⟨[108, 115], by decide⟩ CInt.one ⟨[117], by decide⟩).encode).1 = some (.submit req) ∧
        req.src = 1 ∧ req.numReqNodes = 1 ∧ req.commStr = [108, 115] ∧ req.username = [117]) ∧
      ∃ job, interactiveJob (zeroBuffer.recv
          (singleJobSubmitBytes 1 1 [108, 115] 1 (zeros 4))).1 = some (some job) ∧
        job.src = 1 ∧ job.jobId = 1 ∧ job.pcomm = [108, 115] ∧
        0 ≤ 24 + job.pcommLen ∧ 24 + job.pcommLen < msgBuffSize := by
  obtain ⟨hsubmit, hdatagram⟩ := job_messages_round_trip CInt.one CInt.one CInt.one CInt.one
    CInt.one CInt.one ⟨[108, 115], by decide⟩ ⟨[117], by decide⟩ (zeros 4) zeroBuffer
  exact ⟨hsubmit (by decide), hdatagram (by decide)⟩

end Epbs
