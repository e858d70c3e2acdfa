/-
The way of a command, from the client that submits it to the node that runs it.

* `singleJobSubmitBytes`, `dealJobRequest`: what `server_single_job_submit` sends, and
  what `deal_interactive_job_request` makes of its receive buffer;
* `Route`, `commandAtNode`: the five hops in a row, `none` if a copy leaves its buffer;
* `copies_eq_iff`: what is left of a command after the two formatted copies;
* `command_arrives_iff`: the commands that arrive as they were submitted.
-/
import Epbs.Wire.Submit
import Epbs.Cluster.Node

namespace Epbs

open Words

/-! ### From the master to the node -/

/-- **The datagram of `server_single_job_submit`**; the sixth header word is never set. -/
def singleJobSubmitBytes (localId remoteId : ℤ) (command : Bytes) (jobId : ℤ)
    (unset : {bytes : Bytes // bytes.length = 4}) : Bytes :=
  encodeInts [msgTypeJobSubmit, localId, remoteId, jobId, command.length + 1] ++
    (unset.1 ++ (command ++ [0]))

/-- **`deal_interactive_job_request`** on its receive buffer: the command that
`execl_thread` gets, if the message is a submit message. -/
def dealJobRequest (recvBuffer : Bytes) : Option (Option Bytes) := do
  let type ← intAt recvBuffer 0
  if type = msgTypeJobSubmit then
    let _src ← intAt recvBuffer 4
    let _dist ← intAt recvBuffer 8
    let _jobId ← intAt recvBuffer 12
    let pcommLen ← intAt recvBuffer 16
    let recvBuffer ← put recvBuffer (24 + pcommLen) [0]
    let pcomm ← cstrAt recvBuffer 24
    return some pcomm
  else return none

section Datagram

variable (localId remoteId jobId : ℤ) (job : ℕ) {command : Bytes}

/-- The command of a submit message ends at its NUL. -/
lemma jobOfMsg_singleJobSubmit (hnul : 0 ∉ command) :
    (Node.jobOfMsg (serverSingleJobSubmit localId remoteId command jobId job).msg job).pcomm =
      command := by
  have hstr : ∀ c ∈ command, decide (c ≠ 0) = true :=
    fun c hc => decide_eq_true fun h0 => hnul (h0 ▸ hc)
  show ((command ++ [0]).take ((command.length : ℤ) + 1).toNat).takeWhile (· ≠ 0) = command
  rw [List.take_of_length_le (by rw [List.length_append, List.length_singleton]; omega),
    List.takeWhile_append_of_pos hstr]
  exact List.append_nil command

/-- A submit message in the receive buffer, and the command that is read from it. -/
lemma dealJobRequest_of_submit {recvBuffer written pcomm : Bytes} {pcommLen : ℤ}
    (hlen : 24 ≤ recvBuffer.length) (htype : intAt recvBuffer 0 = some msgTypeJobSubmit)
    (hpcommLen : intAt recvBuffer 16 = some pcommLen)
    (hput : put recvBuffer (24 + pcommLen) [0] = some written)
    (hcstr : cstrAt written 24 = some pcomm) :
    dealJobRequest recvBuffer = some (some pcomm) := by
  have hword : ∀ off : ℕ, off + 4 ≤ 24 → ∃ n, intAt recvBuffer off = some n := by
    intro off hoff
    exact Option.isSome_iff_exists.mp (intAt_isSome_iff.mpr ⟨by omega, by omega⟩)
  obtain ⟨src, hsrc⟩ := hword 4 (by norm_num)
  obtain ⟨dist, hdist⟩ := hword 8 (by norm_num)
  obtain ⟨id, hid⟩ := hword 12 (by norm_num)
  norm_cast at hsrc hdist hid
  simp only [dealJobRequest, htype, hsrc, hdist, hid, hpcommLen, hput, hcstr,
    Option.bind_eq_bind, Option.bind_some, if_true]
  rfl

/-- **The datagram in the receive buffer**, if the command and its NUL leave room in it: the
words of the header, and the command once the node has written its own NUL, which goes behind
the one that was sent. -/
lemma singleJobSubmit_received (hnul : 0 ∉ command) (hlen : command.length + 25 < msgBuffSize)
    (unset : {bytes : Bytes // bytes.length = 4}) (stale : RecvBuffer) :
    let recvBuffer := (stale.recv (singleJobSubmitBytes localId remoteId command jobId unset)).1
    24 ≤ recvBuffer.length ∧
      (∀ (k : ℕ) (w : CInt), [msgTypeJobSubmit, localId, remoteId, jobId, command.length + 1][k]? =
        some w.1 → intAt recvBuffer (4 * k : ℕ) = some w.1) ∧
      ∃ written, put recvBuffer (24 + (command.length + 1)) [0] = some written ∧
        cstrAt written 24 = some command := by
  have hsize : msgBuffSize = 2000 := rfl
  let head := encodeInts [msgTypeJobSubmit, localId, remoteId, jobId, command.length + 1] ++ unset.1
  have hhead : head.length = 24 := by
    rw [List.length_append, length_encodeInts, unset.2]
    rfl
  let sent := head ++ (command ++ [0])
  have hsent : sent.length = 24 + (command.length + 1) := by
    simp only [sent, List.length_append, hhead, List.length_singleton]
  have hbuffer : (stale.recv (singleJobSubmitBytes localId remoteId command jobId unset)).1 =
      sent ++ stale.1.drop sent.length := by
    have hmsg : singleJobSubmitBytes localId remoteId command jobId unset = sent :=
      (List.append_assoc _ _ _).symm
    rw [hmsg, stale.recv_of_le (by omega)]
  have hput : put (sent ++ stale.1.drop sent.length) (24 + (command.length + 1)) [0] =
      some (sent ++ 0 :: (stale.1.drop sent.length).drop 1) := by
    have hoff : (24 + (command.length + 1) : ℤ) = sent.length := by omega
    rw [hoff]
    refine put_append_right sent ?_
    rw [List.length_singleton, List.length_drop]
    omega
  -- the NUL of the message ends the command, and the one of the node comes after it
  have hcstr : cstrAt (sent ++ 0 :: (stale.1.drop sent.length).drop 1) 24 = some command := by
    refine cstrAt_append ?_ _
    have hat := cstrAt_append_right head hnul []
    rwa [hhead] at hat
  rw [hbuffer]
  refine ⟨?_, fun k w hw => ?_, _, hput, hcstr⟩
  · rw [List.length_append]
    omega
  · simp only [sent, head, List.append_assoc]
    exact intAt_encodeInts hw _

/-- **The node runs the command that was sent**: the datagram is read as the submit message
of the cluster, if the command and its NUL leave room in the node's buffer. -/
lemma dealJobRequest_singleJobSubmit (hnul : 0 ∉ command)
    (hlen : command.length + 25 < msgBuffSize) (unset : {bytes : Bytes // bytes.length = 4})
    (stale : RecvBuffer) :
    dealJobRequest (stale.recv (singleJobSubmitBytes localId remoteId command jobId unset)).1 =
      some (some (Node.jobOfMsg
        (serverSingleJobSubmit localId remoteId command jobId job).msg job).pcomm) := by
  have hsize : msgBuffSize = 2000 := rfl
  obtain ⟨hlong, hword, written, hput, hcstr⟩ :=
    singleJobSubmit_received localId remoteId jobId hnul hlen unset stale
  rw [jobOfMsg_singleJobSubmit _ _ _ _ hnul]
  exact dealJobRequest_of_submit hlong (hword 0 ⟨msgTypeJobSubmit, by decide⟩ rfl)
    (hword 4 ⟨command.length + 1, by omega⟩ rfl) hput hcstr

end Datagram

/-! ### The two formatted copies -/

/-- **What is left of a command** after the copies through `sprintf` into the slot and out
of it: it is the command exactly when there is no `%` in it and it fits 32 bytes. -/
lemma copies_eq_iff {c : Bytes} (hnul : 0 ∉ c) :
    (∃ stored, sprintf 256 c (c.length + 1) = some stored ∧
        sprintf 32 stored stored.length = some c) ↔
      percent ∉ c ∧ c.length < 32 := by
  constructor
  · rintro ⟨stored, hstored, hcopy⟩
    have hlen := sprintf_length_lt hcopy
    have hcount := count_sprintf_le hstored
    have hcount' := count_sprintf_le hcopy
    -- each copy halves the percent signs
    have hfirst : ¬((c.length : ℤ) + 1) % 256 = 37 := by omega
    rw [if_neg hfirst] at hcount
    refine ⟨List.count_eq_zero.mp ?_, hlen⟩
    split_ifs at hcount' <;> omega
  · rintro ⟨hpercent, hlen⟩
    exact ⟨c, sprintf_of_plain hpercent hnul (by omega) _,
      sprintf_of_plain hpercent hnul hlen _⟩

/-! ### The five hops -/

/-- What a command meets on its way: who submits it, what is in the receive buffers, the
tables when the SUBMIT is handled and when the pop thread finds the job at the tail, and
the node. -/
structure Route where
  src : CInt
  dist : CInt
  numReqNodes : CInt
  monitorStale : RecvBuffer
  now : ℤ
  atSubmit : Server
  atPop : {s : Server // s.jobHead ≠ s.jobTail}
  node : ℤ
  unset : {bytes : Bytes // bytes.length = 4}
  nodeStale : RecvBuffer

/-- The way of a job from its slot at the tail: it is popped, sent, and read by the node. -/
def Route.fromSlot (r : Route) (slot : BatchJobInfo) : Option Bytes := do
  let (taken, _) ← jobQueueTake (r.atPop.1.writeSlot r.atPop.1.jobTail slot)
  let job ← taken
  let datagram := singleJobSubmitBytes serverMachineId r.node job.pcomm job.jobId r.unset
  let pcomm ← dealJobRequest (r.nodeStale.recv datagram).1
  pcomm

/-- **The command on its way** from the client: the string that `execl_thread` gets. -/
def commandAtNode (r : Route) (c username : CStr) : Option Bytes := do
  let msg := (ClientRequest.submit r.src r.dist c r.numReqNodes username).encode
  let (srv, reply) ← handleSubmit (r.monitorStale.recv msg).1 r.now r.atSubmit
  r.fromSlot (srv.jobq reply.newJobId)

/-- From its slot to the node, the command is copied once. -/
lemma fromSlot_eq (r : Route) (slot : BatchJobInfo) :
    r.fromSlot slot = sprintf 32 slot.pcomm slot.pcomm.length := by
  have hjob : (r.atPop.1.writeSlot r.atPop.1.jobTail slot).jobq r.atPop.1.jobTail = slot :=
    Function.update_self ..
  rw [Route.fromSlot, jobQueueTake, Server.writeSlot_jobHead, Server.writeSlot_jobTail,
    if_neg r.atPop.2, hjob]
  cases hcopy : sprintf 32 slot.pcomm slot.pcomm.length with
  | none => simp only [hcopy, Option.bind_eq_bind, Option.bind_none]
  | some pcomm =>
      have hlen := sprintf_length_lt hcopy
      have hsize : pcomm.length + 25 < msgBuffSize := by
        rw [msgBuffSize]
        omega
      have hnode := dealJobRequest_singleJobSubmit serverMachineId r.node slot.jobId 0
        (sprintf_nul_free hcopy) hsize r.unset r.nodeStale
      rw [jobOfMsg_singleJobSubmit _ _ _ _ (sprintf_nul_free hcopy)] at hnode
      simp only [hcopy, Option.bind_eq_bind, Option.bind_some, Option.pure_def, hnode]

/-- **The hops in a row**: the message is read as a SUBMIT, the command is copied into the
slot, next to a user name that fits, and out of it. -/
lemma commandAtNode_eq_some_iff {r : Route} {c username : CStr} {x : Bytes} :
    commandAtNode r c username = some x ↔
      ∃ req stored, parseRequest (r.monitorStale.recv
          (ClientRequest.submit r.src r.dist c r.numReqNodes username).encode).1 =
            some (.submit req) ∧
        sprintf 256 req.commStr req.commStrLen = some stored ∧
        (sprintf 32 req.username req.usernameLen).isSome ∧
        sprintf 32 stored stored.length = some x := by
  constructor
  · intro h
    obtain ⟨⟨srv, reply⟩, hsubmit, h⟩ := Option.bind_eq_some_iff.mp h
    simp only [fromSlot_eq] at h
    rw [handleSubmit] at hsubmit
    split at hsubmit
    · rename_i req hreq
      obtain ⟨stored, hstored, hsubmit⟩ := Option.bind_eq_some_iff.mp hsubmit
      obtain ⟨name, hname, hsubmit⟩ := Option.bind_eq_some_iff.mp hsubmit
      cases hsubmit
      simp only [Server.advanceHead_jobq, Server.writeSlot_jobq, Function.update_self] at h
      exact ⟨req, stored, hreq, hstored, Option.isSome_of_eq_some hname, h⟩
    · cases hsubmit
  · rintro ⟨req, stored, hreq, hstored, hname, h⟩
    obtain ⟨name, hname⟩ := Option.isSome_iff_exists.mp hname
    simp only [commandAtNode, handleSubmit, hreq, jobMonitorSubmit, hstored, hname, fromSlot_eq,
      Option.bind_eq_bind, Option.bind_some, Option.pure_def, Server.advanceHead_jobq,
      Server.writeSlot_jobq, Function.update_self]
    exact h

/-- A message that does not fit the receive buffer is not read: its user name has no end. -/
lemma parseRequest_long {r : Route} {c username : CStr} (hc : c.1.length < 32)
    (hlong : msgBuffSize <
      (ClientRequest.submit r.src r.dist c r.numReqNodes username).encode.length)
    (req : SubmitRequest) :
    parseRequest (r.monitorStale.recv
      (ClientRequest.submit r.src r.dist c r.numReqNodes username).encode).1 ≠
        some (.submit req) := by
  intro h
  simp only [RecvBuffer.recv] at h
  rw [List.length_take_of_le hlong.le, List.drop_of_length_le r.monitorStale.2.le,
    List.append_nil, encode_submit] at h
  cases parseRequest_iff.mp h with
  | submit htype hsrc hdist hlen hnodes hulen hcomm huser =>
      have hhead := length_submitHead r.src r.dist c r.numReqNodes username
      -- the length word is the client's, so the user name starts behind the head
      have hcommLen : intAt (submitHead r.src r.dist c r.numReqNodes username ++
          (username.1 ++ [0])) 12 = some (c.1.length + 1 : ℤ) := by
        rw [submitHead, List.append_assoc]
        exact intAt_encodeInts (k := 3) (w := ⟨c.1.length + 1, by omega⟩) rfl _
      have hsame : req.commStrLen = c.1.length + 1 := by
        have hwhole := intAt_append hlen ((submitHead r.src r.dist c r.numReqNodes username ++
          (username.1 ++ [0])).drop msgBuffSize)
        rw [List.take_append_drop, hcommLen] at hwhole
        exact (Option.some.inj hwhole).symm
      obtain ⟨⟨-, hend⟩, -⟩ := cstrAt_eq_some_iff.mp huser
      have hoff : (24 + req.commStrLen).toNat =
          (submitHead r.src r.dist c r.numReqNodes username).length := by omega
      rw [encode_submit, List.length_append, List.length_append, List.length_singleton] at hlong
      -- the bytes that were received end before the NUL
      rw [hoff, List.drop_take, List.drop_left, List.take_append_of_le_length (by omega)] at hend
      exact username.2 (List.mem_of_mem_take hend)

/-- **The command that runs is the command that was submitted**, and no copy leaves its
buffer, exactly for the commands without a `%` that fit 32 bytes, next to a user name whose
copy fits 32 bytes, in a message that fits the receive buffer. -/
theorem command_arrives_iff (r : Route) (c username : CStr) :
    commandAtNode r c username = some c.1 ↔
      percent ∉ c.1 ∧ c.1.length < 32 ∧
        (sprintf 32 username.1 (username.1.length + 1)).isSome ∧
        (ClientRequest.submit r.src r.dist c r.numReqNodes username).encode.length ≤
          msgBuffSize := by
  rw [commandAtNode_eq_some_iff]
  constructor
  · rintro ⟨req, stored, hreq, hstored, hname, hcopy⟩
    have hc := sprintf_length_lt hcopy
    have hfits : (ClientRequest.submit r.src r.dist c r.numReqNodes username).encode.length ≤
        msgBuffSize := by
      by_contra hlong
      exact parseRequest_long hc (not_le.mp hlong) req hreq
    rw [r.monitorStale.recv_of_le hfits, parseRequest_encode hfits] at hreq
    obtain rfl := JobRequest.submit.inj (Option.some.inj hreq)
    obtain ⟨hpercent, hlen⟩ := (copies_eq_iff c.2).mp ⟨stored, hstored, hcopy⟩
    exact ⟨hpercent, hlen, hname, hfits⟩
  · rintro ⟨hpercent, hlen, hname, hfits⟩
    obtain ⟨stored, hstored, hcopy⟩ := (copies_eq_iff c.2).mpr ⟨hpercent, hlen⟩
    rw [r.monitorStale.recv_of_le hfits, parseRequest_encode hfits]
    exact ⟨_, stored, rfl, hstored, hname, hcopy⟩

/-- A first submission to a master whose second node runs the job, with clean buffers. -/
def firstRoute : Route where
  src := CInt.one
  dist := CInt.one
  numReqNodes := CInt.one
  monitorStale := zeroBuffer
  now := 0
  atSubmit := configure fun _ => []
  atPop := ⟨(configure fun _ => []).advanceHead, by decide⟩
  node := 2
  unset := zeros 4
  nodeStale := zeroBuffer

/-- The node runs `3` for the command `%d`. -/
theorem percent_command_changed :
    commandAtNode firstRoute ⟨[37, 100], by decide⟩ ⟨[117], by decide⟩ = some [51] ∧
      commandAtNode firstRoute ⟨[37, 100], by decide⟩ ⟨[117], by decide⟩ ≠ some [37, 100] := by
  decide +kernel

end Epbs
