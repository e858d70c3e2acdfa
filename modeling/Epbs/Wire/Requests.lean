/-
The requests of a client in bytes: as `epbscli.c` builds them, and as
`job_monitor_etransfer` reads them.

* `ClientRequest`, `ClientRequest.encode`: what `client_submit_single_job`,
  `client_query_job_status` and `client_cancel_job` send;
* `JobRequest`, `parseRequest`: what the job monitor takes from its receive buffer,
  `none` if it reads outside the buffer;
* `parseRequest_encode`: a whole message is read as the request it encodes;
* `ClientRequest.needed`: the bytes of a message that are read; `parseRequest_take`
  and `exists_stale`: with so many bytes the rest of the buffer does not matter, and
  with fewer it does.
-/
import Epbs.Machine.Words
import Epbs.Server.Queue
import Epbs.Server.Messages

namespace Epbs

open Words

/-! ### What a client sends -/

/-- A request as a client builds it.  A QUERY and a CANCEL go out with bytes the client
never wrote: the rest of the header, and for a CANCEL the rest of a whole buffer. -/
inductive ClientRequest where
  | submit (src dist : CInt) (commstr : CStr) (numReqNodes : CInt) (username : CStr)
  | query (src jobId : CInt) (unset : {bytes : Bytes // bytes.length = 8})
  | cancel (src jobId : CInt) (unset : {bytes : Bytes // bytes.length = 1984})

/-- **The message** of a request. -/
def ClientRequest.encode : ClientRequest → Bytes
  | .submit src dist commstr numReqNodes username =>
      encodeInts [msgTypeJobSubmit, src, dist, commstr.1.length + 1, numReqNodes,
        username.1.length + 1] ++ (commstr.1 ++ 0 :: (username.1 ++ [0]))
  | .query src jobId unset => encodeInts [msgTypeJobQuery, src, serverMachineId, jobId] ++ unset.1
  | .cancel src jobId unset => encodeInts [msgTypeJobCancel, src, serverMachineId, jobId] ++ unset.1

/-! ### What the job monitor reads -/

/-- What the job monitor takes from a request. -/
inductive JobRequest where
  | cancel (jobId : ℤ)
  | submit (req : SubmitRequest)
  | query (src jobId : ℤ)
  | other

/-- **The reads of `job_monitor_etransfer`** in its receive buffer.  `src` and `dist` are
read for every type. -/
def parseRequest (recvBuffer : Bytes) : Option JobRequest := do
  let type ← intAt recvBuffer 0
  let src ← intAt recvBuffer 4
  let _dist ← intAt recvBuffer 8
  if type = msgTypeJobCancel then
    let jobId ← intAt recvBuffer 12
    return .cancel jobId
  else if type = msgTypeJobSubmit then
    let commStrLen ← intAt recvBuffer 12
    let numReqNodes ← intAt recvBuffer 16
    let usernameLen ← intAt recvBuffer 20
    let commStr ← cstrAt recvBuffer 24
    let username ← cstrAt recvBuffer (24 + commStrLen)
    return .submit ⟨src, commStr, commStrLen, numReqNodes, username, usernameLen⟩
  else if type = msgTypeJobQuery then
    let jobId ← intAt recvBuffer 12
    return .query src jobId
  else return .other

/-- The request a message encodes. -/
def ClientRequest.request : ClientRequest → JobRequest
  | .submit src _ commstr numReqNodes username =>
      .submit ⟨src, commstr, commstr.1.length + 1, numReqNodes, username, username.1.length + 1⟩
  | .query src jobId _ => .query src jobId
  | .cancel _ jobId _ => .cancel jobId

/-- What the job monitor finds in its buffer. -/
inductive Parsed (buf : Bytes) : JobRequest → Prop
  | cancel {src dist jobId : ℤ} (htype : intAt buf 0 = some msgTypeJobCancel)
      (hsrc : intAt buf 4 = some src) (hdist : intAt buf 8 = some dist)
      (hid : intAt buf 12 = some jobId) : Parsed buf (.cancel jobId)
  | submit {req : SubmitRequest} {dist : ℤ} (htype : intAt buf 0 = some msgTypeJobSubmit)
      (hsrc : intAt buf 4 = some req.src) (hdist : intAt buf 8 = some dist)
      (hlen : intAt buf 12 = some req.commStrLen) (hnodes : intAt buf 16 = some req.numReqNodes)
      (hulen : intAt buf 20 = some req.usernameLen) (hcomm : cstrAt buf 24 = some req.commStr)
      (huser : cstrAt buf (24 + req.commStrLen) = some req.username) : Parsed buf (.submit req)
  | query {src dist jobId : ℤ} (htype : intAt buf 0 = some msgTypeJobQuery)
      (hsrc : intAt buf 4 = some src) (hdist : intAt buf 8 = some dist)
      (hid : intAt buf 12 = some jobId) : Parsed buf (.query src jobId)
  | other {type src dist : ℤ} (htype : intAt buf 0 = some type) (hsrc : intAt buf 4 = some src)
      (hdist : intAt buf 8 = some dist) (hcancel : type ≠ msgTypeJobCancel)
      (hsubmit : type ≠ msgTypeJobSubmit) (hquery : type ≠ msgTypeJobQuery) : Parsed buf .other

/-- **The reads of a request**, word by word. The three types have different codes, so that the
order in which the server compares them does not matter. -/
lemma parseRequest_iff {buf : Bytes} {req : JobRequest} :
    parseRequest buf = some req ↔ Parsed buf req := by
  constructor
  · intro h
    obtain ⟨type, htype, h⟩ := Option.bind_eq_some_iff.mp h
    obtain ⟨src, hsrc, h⟩ := Option.bind_eq_some_iff.mp h
    obtain ⟨dist, hdist, h⟩ := Option.bind_eq_some_iff.mp h
    split_ifs at h with hcancel hsubmit hquery
    · obtain ⟨jobId, hid, h⟩ := Option.bind_eq_some_iff.mp h
      cases h
      exact .cancel (hcancel ▸ htype) hsrc hdist hid
    · obtain ⟨commStrLen, hlen, h⟩ := Option.bind_eq_some_iff.mp h
      obtain ⟨numReqNodes, hnodes, h⟩ := Option.bind_eq_some_iff.mp h
      obtain ⟨usernameLen, hulen, h⟩ := Option.bind_eq_some_iff.mp h
      obtain ⟨commStr, hcomm, h⟩ := Option.bind_eq_some_iff.mp h
      obtain ⟨username, huser, h⟩ := Option.bind_eq_some_iff.mp h
      cases h
      exact .submit (hsubmit ▸ htype) hsrc hdist hlen hnodes hulen hcomm huser
    · obtain ⟨jobId, hid, h⟩ := Option.bind_eq_some_iff.mp h
      cases h
      exact .query (hquery ▸ htype) hsrc hdist hid
    · cases h
      exact .other htype hsrc hdist hcancel hsubmit hquery
  · intro h
    have hne : msgTypeJobSubmit ≠ msgTypeJobCancel := by decide
    have hne' : msgTypeJobQuery ≠ msgTypeJobCancel ∧ msgTypeJobQuery ≠ msgTypeJobSubmit := by
      decide
    cases h with
    | cancel htype hsrc hdist hid => simp [parseRequest, htype, hsrc, hdist, hid]
    | submit htype hsrc hdist hlen hnodes hulen hcomm huser =>
        simp [parseRequest, htype, hsrc, hdist, hne, hlen, hnodes, hulen, hcomm, huser]
    | query htype hsrc hdist hid => simp [parseRequest, htype, hsrc, hdist, hne', hid]
    | other htype hsrc hdist hcancel hsubmit hquery =>
        simp [parseRequest, htype, hsrc, hdist, hcancel, hsubmit, hquery]

/-- Bytes behind those that are read do not matter. -/
lemma parseRequest_append {buf : Bytes} {req : JobRequest} (h : parseRequest buf = some req)
    (rest : Bytes) : parseRequest (buf ++ rest) = some req := by
  rw [parseRequest_iff] at h ⊢
  cases h with
  | cancel htype hsrc hdist hid =>
      exact .cancel (intAt_append htype _) (intAt_append hsrc _) (intAt_append hdist _)
        (intAt_append hid _)
  | submit htype hsrc hdist hlen hnodes hulen hcomm huser =>
      exact .submit (intAt_append htype _) (intAt_append hsrc _) (intAt_append hdist _)
        (intAt_append hlen _) (intAt_append hnodes _) (intAt_append hulen _)
        (cstrAt_append hcomm _) (cstrAt_append huser _)
  | query htype hsrc hdist hid =>
      exact .query (intAt_append htype _) (intAt_append hsrc _) (intAt_append hdist _)
        (intAt_append hid _)
  | other htype hsrc hdist hcancel hsubmit hquery =>
      exact .other (intAt_append htype _) (intAt_append hsrc _) (intAt_append hdist _) hcancel
        hsubmit hquery

/-! ### Whole messages and parts of them -/

/-- **The bytes of a message that are read**: all of a SUBMIT, and four words of a QUERY
or a CANCEL. -/
def ClientRequest.needed (req : ClientRequest) : ℕ :=
  match req with
  | .submit .. => req.encode.length
  | .query .. | .cancel .. => 16

/-- The header of a SUBMIT, and its command with the NUL. -/
def submitHead (src dist : CInt) (commstr : CStr) (numReqNodes : CInt) (username : CStr) :
    Bytes :=
  encodeInts [msgTypeJobSubmit, src, dist, commstr.1.length + 1, numReqNodes,
    username.1.length + 1] ++ (commstr.1 ++ [0])

lemma length_submitHead (src dist : CInt) (commstr : CStr) (numReqNodes : CInt)
    (username : CStr) :
    ((submitHead src dist commstr numReqNodes username).length : ℤ) =
      24 + (commstr.1.length + 1) := by
  simp only [submitHead, List.length_append, length_encodeInts, List.length_cons, List.length_nil]
  push_cast
  rfl

lemma encode_submit (src dist : CInt) (commstr : CStr) (numReqNodes : CInt) (username : CStr) :
    (ClientRequest.submit src dist commstr numReqNodes username).encode =
      submitHead src dist commstr numReqNodes username ++ (username.1 ++ [0]) := by
  simp only [ClientRequest.encode, submitHead, List.append_assoc, List.singleton_append]

/-- A SUBMIT message is read as the SUBMIT it encodes. -/
lemma parsed_submit {src dist numReqNodes : CInt} {commstr username : CStr}
    (h : (ClientRequest.submit src dist commstr numReqNodes username).encode.length
      ≤ msgBuffSize) :
    Parsed (ClientRequest.submit src dist commstr numReqNodes username).encode
      (ClientRequest.submit src dist commstr numReqNodes username).request := by
  have hsize : msgBuffSize = 2000 := rfl
  simp only [ClientRequest.encode, List.length_append, List.length_cons, length_encodeInts] at h
  let commStrLen : CInt := ⟨commstr.1.length + 1, by omega⟩
  let usernameLen : CInt := ⟨username.1.length + 1, by omega⟩
  have hword : ∀ (k : ℕ) (w : CInt), [msgTypeJobSubmit, src.1, dist.1, commStrLen.1,
      numReqNodes.1, usernameLen.1][k]? = some w.1 →
      intAt (ClientRequest.submit src dist commstr numReqNodes username).encode (4 * k : ℕ)
        = some w.1 :=
    fun k w hk => intAt_encodeInts hk _
  refine .submit (hword 0 ⟨msgTypeJobSubmit, by decide⟩ rfl) (hword 1 src rfl) (hword 2 dist rfl)
    (hword 3 commStrLen rfl) (hword 4 numReqNodes rfl) (hword 5 usernameLen rfl) ?_ ?_
  · exact cstrAt_append_right (encodeInts _) commstr.2 _
  · -- the user name follows the NUL of the command
    rw [encode_submit]
    exact (congrArg (cstrAt _) (length_submitHead ..).symm).trans
      (cstrAt_append_right _ username.2 [])

/-- The first four words of a message. -/
lemma intAt_take (type src dist jobId : CInt) (unset : Bytes) (k : ℕ) (w : CInt)
    (h : [type.1, src.1, dist.1, jobId.1][k]? = some w.1) :
    intAt ((encodeInts [type.1, src.1, dist.1, jobId.1] ++ unset).take 16) (4 * k : ℕ)
      = some w.1 := by
  have hhead : (encodeInts [type.1, src.1, dist.1, jobId.1] ++ unset).take 16 =
      encodeInts [type.1, src.1, dist.1, jobId.1] := List.take_left' (length_encodeInts _)
  rw [hhead, ← List.append_nil (encodeInts _)]
  exact intAt_encodeInts h []

/-- The read part of a message is read as the request it encodes. -/
lemma parseRequest_take {req : ClientRequest} (h : req.encode.length ≤ msgBuffSize) :
    parseRequest (req.encode.take req.needed) = some req.request := by
  rw [parseRequest_iff]
  let server : CInt := ⟨serverMachineId, by decide⟩
  cases req with
  | submit src dist commstr numReqNodes username =>
      rw [ClientRequest.needed, List.take_length]
      exact parsed_submit h
  | query src jobId unset =>
      have hword := intAt_take ⟨msgTypeJobQuery, by decide⟩ src server jobId unset.1
      exact .query (hword 0 ⟨msgTypeJobQuery, by decide⟩ rfl) (hword 1 src rfl)
        (hword 2 server rfl) (hword 3 jobId rfl)
  | cancel src jobId unset =>
      have hword := intAt_take ⟨msgTypeJobCancel, by decide⟩ src server jobId unset.1
      exact .cancel (hword 0 ⟨msgTypeJobCancel, by decide⟩ rfl) (hword 1 src rfl)
        (hword 2 server rfl) (hword 3 jobId rfl)

/-- A whole message is read as the request it encodes, whatever is behind it. -/
lemma parseRequest_encode {req : ClientRequest} (h : req.encode.length ≤ msgBuffSize)
    (rest : Bytes) : parseRequest (req.encode ++ rest) = some req.request := by
  rw [← List.take_append_drop req.needed req.encode, List.append_assoc]
  exact parseRequest_append (parseRequest_take h) _

/-- Another byte in the fourth word makes another word. -/
lemma intAt_take_ne {buf : Bytes} {n : ℤ} (h : intAt buf 12 = some n) :
    ∃ c, ∀ rest, intAt (buf.take 15 ++ c :: rest) 12 ≠ some n := by
  have hin := intAt_isSome_iff.mp (Option.isSome_of_eq_some h)
  have hlen : 15 < buf.length := by omega
  have hword : intAt buf (12 : ℕ) = some n := h
  refine ⟨buf[15] + 1, fun rest => intAt_ne (by norm_num : 3 < 4) ?_ hword⟩
  show buf[15]? ≠ (buf.take 15 ++ (buf[15] + 1) :: rest)[15]?
  have htake : (buf.take 15).length = 15 := List.length_take_of_le hlen.le
  rw [List.getElem?_append_right (by omega), htake, List.getElem?_eq_getElem hlen]
  intro heq
  have hbyte : buf[15].toNat = (buf[15] + 1).toNat :=
    congrArg UInt8.toNat (Option.some.inj heq)
  rw [UInt8.toNat_add, UInt8.toNat_one] at hbyte
  have hlt := buf[15].toNat_lt
  omega

/-- With the last byte that is read replaced, the message is read as something else: the NUL of
a user name, or the last byte of a job id. -/
lemma parseRequest_ne {req : ClientRequest} (h : req.encode.length ≤ msgBuffSize) :
    ∃ c, ∀ rest,
      parseRequest (req.encode.take (req.needed - 1) ++ c :: rest) ≠ some req.request := by
  have hparsed := parseRequest_iff.mp (parseRequest_encode h [])
  rw [List.append_nil] at hparsed
  cases req with
  | submit src dist commstr numReqNodes username =>
      refine ⟨1, fun rest hreq => ?_⟩
      have htake : (ClientRequest.submit src dist commstr numReqNodes username).encode.take
          ((ClientRequest.submit src dist commstr numReqNodes username).needed - 1) =
          submitHead src dist commstr numReqNodes username ++ username.1 := by
        rw [ClientRequest.needed, encode_submit, ← List.append_assoc, ← List.dropLast_eq_take,
          List.dropLast_concat]
      rw [htake, List.append_assoc] at hreq
      have hlen := length_submitHead src dist commstr numReqNodes username
      cases parseRequest_iff.mp hreq with
      | submit htype hsrc hdist hlen hnodes hulen hcomm huser =>
          refine cstrAt_append_right_ne (submitHead src dist commstr numReqNodes username)
            username.2 (c := 1) (by decide) rest ?_
          exact (congrArg (cstrAt _) (length_submitHead ..)).trans huser
  | query src jobId unset =>
      cases hparsed with
      | query htype hsrc hdist hid =>
          refine (intAt_take_ne hid).imp fun c hc rest hreq => ?_
          cases parseRequest_iff.mp hreq with
          | query htype hsrc hdist hid' => exact hc rest hid'
  | cancel src jobId unset =>
      cases hparsed with
      | cancel htype hsrc hdist hid =>
          refine (intAt_take_ne hid).imp fun c hc rest hreq => ?_
          cases parseRequest_iff.mp hreq with
          | cancel htype hsrc hdist hid' => exact hc rest hid'

/-- Not all of a message is read past its end. -/
lemma needed_le (req : ClientRequest) : req.needed ≤ req.encode.length := by
  cases req with
  | submit => exact le_rfl
  | query src jobId unset => simp [ClientRequest.needed, ClientRequest.encode]
  | cancel src jobId unset => simp [ClientRequest.needed, ClientRequest.encode]

/-- **With fewer bytes** the rest of the buffer decides what is read. -/
lemma exists_stale {req : ClientRequest} (h : req.encode.length ≤ msgBuffSize) {k : ℕ}
    (hk : k < req.needed) :
    ∃ stale : Bytes, stale.length = msgBuffSize ∧
      parseRequest (req.encode.take k ++ stale.drop k) ≠ some req.request := by
  obtain ⟨c, hc⟩ := parseRequest_ne h
  have hle := needed_le req
  let rest : Bytes := List.replicate (msgBuffSize - req.needed) 0
  let stale := req.encode.take (req.needed - 1) ++ c :: rest
  have hsame : req.encode.take k = stale.take k := by
    rw [List.take_append_of_le_length, List.take_take, min_eq_left (by omega)]
    rw [List.length_take]
    omega
  refine ⟨stale, ?_, ?_⟩
  · simp only [stale, rest, List.length_append, List.length_take, List.length_cons,
      List.length_replicate]
    omega
  · rw [hsame, List.take_append_drop]
    exact hc rest

end Epbs
