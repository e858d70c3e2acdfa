/-
The replies of the two monitors against what was in their reply buffer: `send_buffer` comes
from `malloc`, and `send` takes all `MSG_BUFF_SIZE` bytes of it.

* `jobMonitorReply`: the reply of `job_monitor_etransfer` to whatever it received;
* `hostMonitorReply`: the reply of `host_monitor_transfer_2`, for any number of hosts;
* `Leakless`: the reply is a function of the request and of the tables;
* `Unset`: a reply that is written apart from some word of the buffer;
* `jobMonitorReply_unset`, `hostMonitorReply_unset`: no branch writes the sixth word of the
  header;
* `replies_leak`: no reply is leakless.
-/
import Epbs.Wire.JobReplies
import Epbs.Wire.HostReplies

namespace Epbs

open Words

/-! ### The replies -/

/-- The writes of the SUBMIT branch into `send_buffer`, without the fourth word. -/
def submitWrites (localId src newJobId : ℤ) : List (ℤ × Bytes) :=
  intWrites 0 [msgTypeJobSubmit, localId, src] ++ intWrites 16 [newJobId]

/-- The `switch` over the types in `job_monitor_etransfer`.  CANCEL and the types without a
branch write nothing into `send_buffer`. -/
def replyTo (image : ℕ → SlotImage) (localId now : ℤ) (s : Server) (sendBuffer : RecvBuffer) :
    JobRequest → Option Bytes
  | .submit req => (jobMonitorSubmit req now s).bind fun result =>
      putAll sendBuffer.1 (submitWrites localId req.src result.2.newJobId)
  | .query src jobId => jobQueryReply image localId src jobId sendBuffer s
  | .cancel _ | .other => some sendBuffer.1

/-- **The reply of `job_monitor_etransfer`** to what is in its receive buffer. -/
def jobMonitorReply (image : ℕ → SlotImage) (localId now : ℤ) (recvBuffer : Bytes) (s : Server)
    (sendBuffer : RecvBuffer) : Option Bytes :=
  (parseRequest recvBuffer).bind (replyTo image localId now s sendBuffer)

/-- The writes of `host_monitor_transfer_2` into `send_buffer`. -/
def hostQueryWrites (numHosts : ℕ) (localId type src qhId : ℤ) (s : Server) : List (ℤ × Bytes) :=
  if 1 ≤ qhId then
    intWrites 0 [type, localId, src, qhId] ++
      intWrites 24 ((List.range numHosts).map fun i : ℕ => (s.pcstat i).code)
  else if qhId = 0 then
    intWrites 0 [type, localId, src, qhId] ++ (List.range numHosts).flatMap (hostWrites s)
  else []

/-- **The reply of `host_monitor_transfer_2`** to what is in its receive buffer. -/
def hostMonitorReply (numHosts : ℕ) (localId : ℤ) (recvBuffer : Bytes) (s : Server)
    (sendBuffer : RecvBuffer) : Option Bytes := do
  let type ← intAt recvBuffer 0
  let src ← intAt recvBuffer 4
  let _dist ← intAt recvBuffer 8
  let qhId ← intAt recvBuffer 12
  putAll sendBuffer.1 (hostQueryWrites numHosts localId type src qhId s)

/-- It is the reply to a host query. -/
lemma hostMonitorQuery_eq (numHosts : NumHosts) (localId : ℤ) (recvBuffer : Bytes)
    (sendBuffer : RecvBuffer) (s : Server) :
    hostMonitorQuery numHosts localId recvBuffer sendBuffer s =
      hostMonitorReply numHosts localId recvBuffer s sendBuffer := by
  have hreply : ∀ type src qhId : ℤ, hostQueryReply numHosts localId type src qhId sendBuffer s =
      putAll sendBuffer.1 (hostQueryWrites numHosts localId type src qhId s) := by
    intro type src qhId
    rw [hostQueryReply, hostQueryWrites]
    split_ifs <;> rfl
  simp only [hostMonitorQuery, hostMonitorReply, hreply]

/-! ### What is left of the buffer -/

/-- **Replies leak no uninitialised memory**: the reply is the same for every content of the
fresh buffer. -/
def Leakless (reply : RecvBuffer → Option Bytes) : Prop :=
  ∃ bytes, ∀ fresh, reply fresh = some bytes

/-- Every reply that is sent would be another one with another content of the buffer. -/
def Exposed (reply : RecvBuffer → Option Bytes) : Prop :=
  ∀ fresh bytes, reply fresh = some bytes →
    ∃ fresh' bytes', reply fresh' = some bytes' ∧ bytes' ≠ bytes

/-- The reply is written into the buffer apart from the word at an offset, unless what was
received has no reply at all. -/
def Unset (off : ℤ) (reply : RecvBuffer → Option Bytes) : Prop :=
  (∀ fresh, reply fresh = none) ∨
    ∃ ws, (∀ w ∈ ws, Apart w (off, (zeros 4).1)) ∧ ∀ fresh, reply fresh = putAll fresh.1 ws

/-- A buffer of ones. -/
def oneBuffer : RecvBuffer := ⟨List.replicate msgBuffSize 1, List.length_replicate⟩

namespace Unset

variable {off : ℤ} {reply : RecvBuffer → Option Bytes} {fresh : RecvBuffer} {bytes : Bytes}

/-- The word is what it was. -/
lemma intAt_eq (h : Unset off reply) (hbytes : reply fresh = some bytes) :
    intAt bytes off = intAt fresh.1 off := by
  rcases h with hnone | ⟨ws, hapart, hws⟩
  · rw [hnone] at hbytes
    cases hbytes
  · rw [intAt, intAt]
    exact congrArg _ (bytesAt_putAll_of_apart ((hws fresh).symm.trans hbytes) hapart)

/-- Whether there is a reply does not depend on the buffer. -/
lemma exists_reply (h : Unset off reply) (hbytes : reply fresh = some bytes)
    (fresh' : RecvBuffer) : ∃ bytes', reply fresh' = some bytes' := by
  rcases h with hnone | ⟨ws, hapart, hws⟩
  · rw [hnone] at hbytes
    cases hbytes
  · have hin := putAll_isSome_iff.mp (Option.isSome_of_eq_some ((hws fresh).symm.trans hbytes))
    rw [fresh.2, ← fresh'.2] at hin
    rw [hws fresh']
    exact Option.isSome_iff_exists.mp (putAll_isSome_iff.mpr hin)

end Unset

/-- Two buffers differ in their sixth word. -/
lemma intAt_buffers : intAt zeroBuffer.1 20 = some 0 ∧ intAt oneBuffer.1 20 = some 16843009 := by
  decide +kernel

/-- A reply without its sixth word shows that of the buffer. -/
lemma exposed_of_unset {reply : RecvBuffer → Option Bytes} (h : Unset 20 reply) :
    Exposed reply := by
  intro fresh bytes hbytes
  obtain ⟨hzero, hone⟩ := intAt_buffers
  by_cases hword : intAt bytes 20 = some 0
  · obtain ⟨bytes', hbytes'⟩ := h.exists_reply hbytes oneBuffer
    refine ⟨oneBuffer, bytes', hbytes', ?_⟩
    rintro rfl
    rw [h.intAt_eq hbytes', hone] at hword
    cases hword
  · obtain ⟨bytes', hbytes'⟩ := h.exists_reply hbytes zeroBuffer
    refine ⟨zeroBuffer, bytes', hbytes', ?_⟩
    rintro rfl
    exact hword ((h.intAt_eq hbytes').trans hzero)

lemma Exposed.not_leakless {reply : RecvBuffer → Option Bytes} (h : Exposed reply) :
    ¬Leakless reply := by
  rintro ⟨bytes, hbytes⟩
  obtain ⟨fresh', bytes', hbytes', hne⟩ := h zeroBuffer bytes (hbytes zeroBuffer)
  rw [hbytes] at hbytes'
  exact hne (Option.some.inj hbytes').symm

/-! ### The sixth word -/

/-- An array that ends before the word, or begins behind it. -/
lemma intWrites_apart {off : ℤ} {ns : List ℤ} (h : off + 4 * ns.length ≤ 20 ∨ 24 ≤ off) :
    ∀ w ∈ intWrites off ns, Apart w (20, (zeros 4).1) := by
  intro w hw
  have hin := bounds_intWrites hw
  have hfour : (zeros 4).1.length = 4 := (zeros 4).2
  rcases h with hbefore | hbehind
  · exact .inl (by simp only; omega)
  · exact .inr (by rw [hfour]; simp only; omega)

/-- A reply without writes. -/
lemma unset_of_untouched {reply : RecvBuffer → Option Bytes}
    (h : ∀ fresh, reply fresh = some fresh.1) (off : ℤ) : Unset off reply :=
  .inr ⟨[], fun _ hw => absurd hw List.not_mem_nil, h⟩

/-- A reply to what was read is a reply. -/
lemma unset_bind {α : Type*} {o : Option α} {reply : RecvBuffer → α → Option Bytes} {off : ℤ}
    (h : ∀ a, Unset off fun fresh => reply fresh a) :
    Unset off fun fresh => o.bind (reply fresh) := by
  cases o with
  | none => exact .inl fun _ => rfl
  | some a => exact h a

/-- The job queries do not write the sixth word: the records begin behind it. -/
lemma jobQueryReply_unset (image : ℕ → SlotImage) (localId src jobId : ℤ) (s : Server) :
    Unset 20 fun fresh => jobQueryReply image localId src jobId fresh s := by
  by_cases hone : 0 ≤ jobId
  · simp only [jobQueryReply, if_pos hone]
    exact .inr ⟨_, intWrites_apart (.inl (by norm_num)), fun fresh => rfl⟩
  · by_cases harray : jobId = -1
    · simp only [jobQueryReply, if_neg hone, if_pos harray]
      exact .inr ⟨_, List.forall_mem_append.mpr ⟨intWrites_apart (.inl (by norm_num)),
        intWrites_apart (.inr le_rfl)⟩, fun fresh => rfl⟩
    · by_cases hrecords : jobId = -2
      · simp only [jobQueryReply, if_neg hone, if_neg harray, if_pos hrecords]
        refine .inr ⟨_, fun w hw => ?_, fun fresh => rfl⟩
        obtain ⟨i, -, rfl⟩ := List.mem_map.mp hw
        have hfour : (zeros 4).1.length = 4 := (zeros 4).2
        exact .inr (by rw [hfour]; simp only; omega)
      · simp only [jobQueryReply, if_neg hone, if_neg harray, if_neg hrecords]
        exact unset_of_untouched (fun fresh => rfl) 20

/-- **No branch of `job_monitor_etransfer`** writes the sixth word of the header. -/
lemma jobMonitorReply_unset (image : ℕ → SlotImage) (localId now : ℤ) (recvBuffer : Bytes)
    (s : Server) : Unset 20 (jobMonitorReply image localId now recvBuffer s) := by
  refine unset_bind fun req => ?_
  cases req with
  | cancel jobId => exact unset_of_untouched (fun fresh => rfl) 20
  | other => exact unset_of_untouched (fun fresh => rfl) 20
  | submit req =>
      show Unset 20 fun fresh => (jobMonitorSubmit req now s).bind fun result =>
        putAll fresh.1 (submitWrites localId req.src result.2.newJobId)
      refine unset_bind fun result => .inr ⟨_, ?_, fun fresh => rfl⟩
      rw [submitWrites]
      exact List.forall_mem_append.mpr ⟨intWrites_apart (.inl (by norm_num)),
        intWrites_apart (.inl (by norm_num))⟩
  | query src jobId => exact jobQueryReply_unset image localId src jobId s

/-- **No branch of `host_monitor_transfer_2`** writes the sixth word of the header. -/
lemma hostMonitorReply_unset (numHosts : ℕ) (localId : ℤ) (recvBuffer : Bytes) (s : Server) :
    Unset 20 (hostMonitorReply numHosts localId recvBuffer s) := by
  refine unset_bind fun type => unset_bind fun src => unset_bind fun dist => unset_bind
    fun qhId => .inr ⟨hostQueryWrites numHosts localId type src qhId s, ?_, fun fresh => rfl⟩
  have hhead : ∀ w ∈ intWrites 0 [type, localId, src, qhId], Apart w (20, (zeros 4).1) :=
    intWrites_apart (.inl (by norm_num))
  rw [hostQueryWrites]
  split_ifs with hstates hlist
  · exact List.forall_mem_append.mpr ⟨hhead, intWrites_apart (.inr le_rfl)⟩
  · refine List.forall_mem_append.mpr ⟨hhead, fun w hw => ?_⟩
    obtain ⟨i, -, hmem⟩ := List.mem_flatMap.mp hw
    have hin := bounds_hostWrites hmem
    have hfour : (zeros 4).1.length = 4 := (zeros 4).2
    exact .inr (by rw [hfour]; push_cast at hin; simp only; omega)
  · exact fun w hw => absurd hw List.not_mem_nil

/-- **No reply of the two monitors** is a function of the request and of the tables: each of
them shows what was in the buffer before. -/
theorem replies_leak (image : ℕ → SlotImage) (numHosts : ℕ) (localId now : ℤ)
    (recvBuffer : Bytes) (s : Server) :
    (¬Leakless (jobMonitorReply image localId now recvBuffer s) ∧
      Exposed (jobMonitorReply image localId now recvBuffer s)) ∧
    (¬Leakless (hostMonitorReply numHosts localId recvBuffer s) ∧
      Exposed (hostMonitorReply numHosts localId recvBuffer s)) := by
  have hjob := exposed_of_unset (jobMonitorReply_unset image localId now recvBuffer s)
  have hhost := exposed_of_unset (hostMonitorReply_unset numHosts localId recvBuffer s)
  exact ⟨⟨hjob.not_leakless, hjob⟩, ⟨hhost.not_leakless, hhost⟩⟩

/-- The reply to the query of the job 0, in a buffer of zeros and in a buffer of ones. -/
theorem query_reply_leaks :
    let request := (ClientRequest.query CInt.one CInt.zero (zeros 8)).encode
    let reply := jobMonitorReply (fun _ => zeros 344) 1 0 request (configure fun _ => [])
    (reply zeroBuffer).isSome ∧ (reply oneBuffer).isSome ∧ reply zeroBuffer ≠ reply oneBuffer := by
  decide +kernel

end Epbs
