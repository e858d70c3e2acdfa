/-
The id that `client_submit_single_job` shows for a job it submitted.

* `shownJobId`: the reply of the job monitor, and the word that the client takes from its
  buffer after one read, whatever the read brought;
* `submitReply_spec`: the reply to a SUBMIT, in any buffer;
* `shownJobId_iff`: the client shows the id in the reply, whatever was in the buffers before,
  exactly when the read brings the first twenty bytes;
* `shown_job_id_iff`: then the id names the job that was typed, in every run from there on.
-/
import Epbs.Wire.JobHistory
import Epbs.Wire.Leaks

namespace Epbs

open Words

/-! ### The answer to a submission -/

/-- The request that the job monitor finds in the message of `client_submit_single_job`. -/
def typedRequest (src numReqNodes : CInt) (commstr username : CStr) : SubmitRequest where
  src := src
  commStr := commstr.1
  commStrLen := commstr.1.length + 1
  numReqNodes := numReqNodes
  username := username.1
  usernameLen := username.1.length + 1

/-- **The id that the client shows.**  `recv` is called once and brings the first `n` bytes of
the reply, none if it fails; the fifth word of the buffer is shown in either case. -/
def shownJobId (image : ℕ → SlotImage) (localId now : ℤ) (recvBuffer : Bytes) (s : Server)
    (n : ℕ) (sendBuffer stale : RecvBuffer) : Option ℤ := do
  let reply ← jobMonitorReply image localId now recvBuffer s sendBuffer
  intAt (stale.recv (reply.take n)).1 16

section Reply

variable {image : ℕ → SlotImage} {localId now : ℤ} {recvBuffer : Bytes} {s s' : Server}
  {req : SubmitRequest} {warning : Bool} {j : JobId}

/-- **The reply to a SUBMIT** fills the buffer, and its fifth word is the id. -/
lemma submitReply_spec (image : ℕ → SlotImage) (localId : ℤ)
    (hparse : parseRequest recvBuffer = some (.submit req))
    (hjob : jobMonitorSubmit req now s = some (s', ⟨j, warning⟩)) (sendBuffer : RecvBuffer) :
    ∃ reply : RecvBuffer,
      jobMonitorReply image localId now recvBuffer s sendBuffer = some reply.1 ∧
        intAt reply.1 16 = some j.1 := by
  have hbuffer : sendBuffer.1.length = 2000 := sendBuffer.2
  have hwrites : jobMonitorReply image localId now recvBuffer s sendBuffer =
      putAll sendBuffer.1 (submitWrites localId req.src j) := by
    rw [jobMonitorReply, hparse, Option.bind_some]
    show (jobMonitorSubmit req now s).bind _ = _
    rw [hjob]
    rfl
  have hapart : (submitWrites localId req.src j).Pairwise Apart := by
    refine List.pairwise_append.mpr ⟨pairwise_intWrites .., pairwise_intWrites .., ?_⟩
    intro w hw w' hw'
    have hhead : w.1 + w.2.length ≤ 0 + 4 * 3 := (bounds_intWrites hw).2
    have hid : 16 ≤ w'.1 := (bounds_intWrites hw').1
    exact .inl (by omega)
  have hinside : ∀ w ∈ submitWrites localId req.src j,
      0 ≤ w.1 ∧ w.1 + w.2.length ≤ sendBuffer.1.length := by
    refine List.forall_mem_append.mpr ⟨fun w hw => ?_, fun w hw => ?_⟩
    · have hin : (0 : ℤ) ≤ w.1 ∧ w.1 + w.2.length ≤ 0 + 4 * 3 := bounds_intWrites hw
      omega
    · have hin : (16 : ℤ) ≤ w.1 ∧ w.1 + w.2.length ≤ 16 + 4 * 1 := bounds_intWrites hw
      omega
  obtain ⟨reply, hreply⟩ := Option.isSome_iff_exists.mp (putAll_isSome_iff.mpr hinside)
  refine ⟨⟨reply, ?_⟩, hwrites.trans hreply, ?_⟩
  · exact (length_putAll hreply).trans sendBuffer.2
  · refine intAt_putAll (n := j.word) hreply hapart (List.mem_append_right _ ?_)
    exact List.mem_cons_self

/-- **The client shows the id in the reply**, whatever was in the buffers, exactly when the read
brings the first twenty bytes. -/
lemma shownJobId_iff (hparse : parseRequest recvBuffer = some (.submit req))
    (hjob : jobMonitorSubmit req now s = some (s', ⟨j, warning⟩)) (n : ℕ) :
    (∀ sendBuffer stale,
      shownJobId image localId now recvBuffer s n sendBuffer stale = some j.1) ↔ 20 ≤ n := by
  constructor
  · intro h
    by_contra hlt
    obtain ⟨reply, hreply, hid⟩ := submitReply_spec image localId hparse hjob zeroBuffer
    have hlen : reply.1.length = 2000 := reply.2
    -- the byte 19 is not read: a buffer that differs there shows another id
    let c : UInt8 := reply.1[19] + 1
    let stale : RecvBuffer := ⟨List.replicate msgBuffSize c, List.length_replicate⟩
    have hshown := h zeroBuffer stale
    have hfit : (reply.1.take n).length ≤ msgBuffSize :=
      (List.length_take_le n _).trans (by have := not_le.mp hlt; show n ≤ 2000; omega)
    have htake : (reply.1.take n).length = n := List.length_take_of_le (by omega)
    rw [shownJobId, hreply, Option.bind_eq_bind, Option.bind_some, stale.recv_of_le hfit] at hshown
    refine intAt_ne (by norm_num : 3 < 4) ?_ hid hshown
    have hbyte : (reply.1.take n ++ stale.1.drop (reply.1.take n).length)[19]? = some c := by
      rw [List.getElem?_append_right (by omega), List.getElem?_drop, htake,
        List.getElem?_replicate_of_lt (by show n + (19 - n) < 2000; omega)]
    show reply.1[19]? ≠ (reply.1.take n ++ stale.1.drop (reply.1.take n).length)[19]?
    rw [hbyte, List.getElem?_eq_getElem (by omega)]
    intro heq
    have hsame : reply.1[19].toNat = (reply.1[19] + 1).toNat :=
      congrArg UInt8.toNat (Option.some.inj heq)
    rw [UInt8.toNat_add, UInt8.toNat_one] at hsame
    have hbound := reply.1[19].toNat_lt
    omega
  · intro hle sendBuffer stale
    obtain ⟨reply, hreply, hid⟩ := submitReply_spec image localId hparse hjob sendBuffer
    have hlen : reply.1.length = 2000 := reply.2
    have hread : (intAt (reply.1.take n) 16).isSome := by
      rw [intAt_isSome_iff, List.length_take]
      omega
    obtain ⟨x, hx⟩ := Option.isSome_iff_exists.mp hread
    have hsame := intAt_append hx (reply.1.drop n)
    rw [List.take_append_drop, hid] at hsame
    obtain rfl := Option.some.inj hsame
    have hfit : (reply.1.take n).length ≤ msgBuffSize := by
      rw [List.length_take, hlen]
      exact min_le_right ..
    rw [shownJobId, hreply, Option.bind_eq_bind, Option.bind_some, stale.recv_of_le hfit]
    exact intAt_append hx _

end Reply

/-! ### The job it names -/

/-- **The id that the user is shown names the job that was typed.**  A message of a client that
fits the buffer of the job monitor is handled in some state, and a run goes on from there, over
any network, with fewer than `MAX_JOB_QUEUE` further SUBMITs and no copy of a string that leaves
its field.  The slot of the job then holds what `sprintf` makes of the typed command, which is
the command itself if there is no `%` in it, and a query for its id shows the status in that
slot; and this id is shown to the user, whatever was in the buffers, exactly when the first read
of the reply brings at least twenty bytes. -/
theorem shown_job_id_iff {numHosts : ℤ} {accepts : Network} {ips : ℤ → Bytes} {s s₁ s' : Sys}
    {src dist numReqNodes : CInt} {commstr username : CStr} {now : ℤ} {ls : List SysAct}
    (hlen : (ClientRequest.submit src dist commstr numReqNodes username).encode.length
      ≤ msgBuffSize)
    (hreach : (clusterMachine numHosts accepts ips).Reach (OnMaster numHosts CopiesFit) s)
    (hguard : (clusterMachine numHosts accepts ips).GuardedRun (OnMaster numHosts CopiesFit)
      (.submit (typedRequest src numReqNodes commstr username) now :: ls) s)
    (hsubmit : (clusterMachine numHosts accepts ips).step
      (.submit (typedRequest src numReqNodes commstr username) now) s = some s₁)
    (hrun : (clusterMachine numHosts accepts ips).run ls s₁ = some s')
    (hfew : s'.master.accepted ≤ s₁.master.accepted + (maxJobQueue - 1))
    (image : ℕ → SlotImage) (localId : ℤ) (monitorStale : RecvBuffer) (n : ℕ) :
    ∃ j : JobId, s'.master.jobOf j = s.master.accepted ∧
      sprintf 256 commstr.1 (commstr.1.length + 1) = some (s'.master.srv.jobq j).pcomm ∧
      (percent ∉ commstr.1 → (s'.master.srv.jobq j).pcomm = commstr.1) ∧
      (s'.master.srv.jobq j).numReqNodes = numReqNodes ∧
      (∀ q : QueryPath, shownFor j (queryJobs q j.word s'.master.srv)
        = some [(s'.master.srv.jobq j).jobStat.code]) ∧
      ((∀ sendBuffer stale, shownJobId image localId now
          (monitorStale.recv
            (ClientRequest.submit src dist commstr numReqNodes username).encode).1
          s.master.srv n sendBuffer stale = some j.1) ↔ 20 ≤ n) := by
  obtain ⟨hjob, haccepted, -⟩ := submit_spec hsubmit
  obtain ⟨hhead, husage, hend⟩ := keptFor_of_submit hreach hguard hsubmit hrun
  have howns := hend.owns (haccepted ▸ hfew)
  obtain ⟨hrequest, howner⟩ := hend.kept howns.2
  obtain ⟨pcomm, user, hpcomm, -, hsrv⟩ := jobMonitorSubmit_cases hjob
  -- what SUBMIT stored at the head is there in the end
  have hslot : (s₁.master.srv.jobq (slotOf s.master.accepted)).queued =
      ⟨slotOf s.master.accepted, pcomm, user, numReqNodes⟩ := by
    rw [hsrv, Server.advanceHead_jobq, Server.writeSlot_jobq, hhead, Function.update_self]
    rfl
  have hqueued : (s'.master.srv.jobq (slotOf s.master.accepted)).queued =
      ⟨slotOf s.master.accepted, pcomm, user, numReqNodes⟩ :=
    (congrArg Prod.fst hrequest).trans hslot
  have hparse : parseRequest (monitorStale.recv
      (ClientRequest.submit src dist commstr numReqNodes username).encode).1 =
        some (.submit (typedRequest src numReqNodes commstr username)) := by
    rw [monitorStale.recv_of_le hlen]
    exact parseRequest_encode hlen _
  have hstored : (s'.master.srv.jobq (jobIdOf s.master.accepted)).pcomm = pcomm :=
    congrArg QueuedJob.pcomm hqueued
  refine ⟨jobIdOf s.master.accepted, howner, ?_, fun hpercent => ?_,
    congrArg QueuedJob.numReqNodes hqueued, fun q => ?_, ?_⟩
  · rw [hstored]
    exact hpcomm
  · rw [hstored]
    exact eq_of_sprintf_plain hpcomm hpercent commstr.2
  · rw [shownFor_single, curJobStat_eq husage]
  · rw [hhead] at hjob
    exact shownJobId_iff (j := jobIdOf s.master.accepted) hparse hjob n

/-- The command `a` for one node, shown with the id 0 when the whole reply is read, and still
in its slot after the pop thread has placed it and a second SUBMIT was handled. -/
theorem shown_job_id_iff_whole : ∃ (s₁ s' : Sys) (j : JobId),
    (clusterMachine 1 lossless fun _ => []).run (List.replicate 6 (.pop 0) ++ [submitOne]) s₁
        = some s' ∧
      s'.master.accepted = 2 ∧ s'.master.jobOf j = 0 ∧ (s'.master.srv.jobq j).pcomm = [97] ∧
      ∀ sendBuffer stale, shownJobId (fun _ => zeros 344) 1 0
        (zeroBuffer.recv (ClientRequest.submit CInt.one CInt.one ⟨[97], by decide⟩ CInt.one
          ⟨[117], by decide⟩).encode).1 (Sys.init fun _ => []).master.srv 2000 sendBuffer stale
            = some j.1 := by
  have hrun : (((clusterMachine 1 lossless fun _ => []).restrict fun s l =>
      (l.masterAct 1).all fun a => decide (CopiesFit s.master a)).run
        (.submit (typedRequest CInt.one CInt.one ⟨[97], by decide⟩ ⟨[117], by decide⟩) 0 ::
          (List.replicate 6 (.pop 0) ++ [submitOne])) (.init fun _ => [])).any
            (fun s' => decide (s'.master.accepted = 2)) = true := by
    decide +kernel
  obtain ⟨s', hguard, hrun', hp⟩ := exists_guardedRun_of_tested CopiesFit hrun
  have haccepted := of_decide_eq_true hp
  obtain ⟨s₁, hsubmit, hrest⟩ := Option.bind_eq_some_iff.mp hrun'
  have hfirst : s₁.master.accepted = 1 := by
    cases Option.some.inj hsubmit
    rfl
  have hfew : s'.master.accepted ≤ s₁.master.accepted + (maxJobQueue - 1) := by
    rw [haccepted, hfirst]
    decide
  obtain ⟨j, howner, -, hpcomm, -, -, hshown⟩ := shown_job_id_iff
    (show (ClientRequest.submit CInt.one CInt.one ⟨[97], by decide⟩ CInt.one
      ⟨[117], by decide⟩).encode.length ≤ msgBuffSize by decide +kernel)
    .init hguard hsubmit hrest hfew (fun _ => zeros 344) 1 zeroBuffer 2000
  exact ⟨s₁, s', j, hrest, haccepted, howner, hpcomm (by decide), hshown.mpr (by norm_num)⟩

end Epbs
