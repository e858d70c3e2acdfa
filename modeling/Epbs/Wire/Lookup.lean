/-
The search of `MSG_TYPE_JOB_QUERY` for a job: a scan of all slots for the first one with the
requested id, which comes to a read of one slot.

* `Master.Stored`: a SUBMIT was stored in the slot;
* `Master.slotStat`: the status of a job read from the slot with its number;
* `Usage.curJobStat_eq_slotStat`: the scan finds that status;
* `job_lookup_by_slot`: the ids in the slots, and the reply to the query of one job.
-/
import Epbs.Wire.JobReplies

namespace Epbs

open Words

namespace Master

/-- A SUBMIT was stored in the slot: they go into the slots in turn. -/
def Stored (m : Master) (slot : ℤ) : Prop := ∃ t < m.accepted, (slotOf t : ℤ) = slot

instance (m : Master) (slot : ℤ) : Decidable (m.Stored slot) :=
  inferInstanceAs (Decidable (∃ t < m.accepted, _))

/-- The status of a job by its slot. -/
def slotStat (m : Master) (jobId : ℤ) : JobStat :=
  if jobId < maxJobQueue ∧ m.Stored jobId then (m.srv.jobq jobId).jobStat else .unknow

end Master

namespace Usage

variable {m : Master}

/-- The slots that were used are those before the number of SUBMITs. -/
lemma stored_iff {i : ℤ} (hi : inTable maxJobQueue i) : m.Stored i ↔ i < m.accepted := by
  obtain ⟨hlow, hhigh⟩ := hi
  constructor
  · rintro ⟨t, ht, rfl⟩
    have hle := slotOf_le t
    omega
  · intro hlt
    refine ⟨i.toNat, by omega, ?_⟩
    rw [slotOf, maxJobQueue] at *
    omega

/-- **A slot has no id, or its own number.** -/
lemma jobId_eq (h : Usage m) {i : ℤ} (hi : inTable maxJobQueue i) :
    (m.srv.jobq i).jobId = -1 ∨ (m.srv.jobq i).jobId = i := by
  rcases le_or_gt (m.accepted : ℤ) i with hle | hlt
  · exact .inl (h.unused i hi hle).1
  · exact .inr (h.used i hi hlt).1

/-- No slot has an id past the ring. -/
lemma curJobStat_of_le (h : Usage m) {jobId : ℤ} (hle : maxJobQueue ≤ jobId) :
    curJobStat jobId m.srv = .unknow := by
  have hnone : ((List.range maxJobQueue).find? fun i : ℕ => (m.srv.jobq i).jobId = jobId) =
      none := by
    rw [List.find?_eq_none]
    intro i hi
    rw [decide_eq_true_eq]
    have hlt : (i : ℤ) < maxJobQueue := by exact_mod_cast List.mem_range.mp hi
    have hown := h.jobId_eq ⟨Int.natCast_nonneg i, hlt⟩
    omega
  rw [curJobStat, hnone, Option.elim_none]

/-- **The scan of the slots** finds what is in the slot with the number of the job. -/
lemma curJobStat_eq_slotStat (h : Usage m) {jobId : ℤ} (hid : 0 ≤ jobId) :
    curJobStat jobId m.srv = m.slotStat jobId := by
  rw [Master.slotStat]
  rcases lt_or_ge jobId maxJobQueue with hlt | hge
  · have hin : inTable maxJobQueue jobId := ⟨hid, hlt⟩
    rw [curJobStat_eq h ⟨jobId, hin⟩]
    split_ifs with hused
    · rfl
    · -- a slot that was never used still has the status it was configured with
      have hle : (m.accepted : ℤ) ≤ jobId := by
        by_contra hgt
        exact hused ⟨hlt, (stored_iff hin).mpr (not_le.mp hgt)⟩
      exact (h.unused jobId hin hle).2.1
  · rw [h.curJobStat_of_le hge, if_neg fun hused => hge.not_gt hused.1]

end Usage

/-- **Job lookup is by slot** in every state the master reaches: a slot has no id or its own
number, and a query of one job is answered with the status in the slot of that number, or
with UNKNOW, next to the id that was asked for. -/
theorem job_lookup_by_slot {numHosts : ℤ} {ips : ℤ → Bytes} {m : Master}
    (h : (masterMachine numHosts ips).Reach Machine.always m) (image : ℕ → SlotImage)
    (localId : CInt) (sendBuffer : RecvBuffer) {recvBuffer : Bytes} {src jobId : ℤ}
    (hrequest : parseRequest recvBuffer = some (.query src jobId)) (hid : 0 ≤ jobId) :
    (∀ i, inTable maxJobQueue i → (m.srv.jobq i).jobId = -1 ∨ (m.srv.jobq i).jobId = i) ∧
      ∃ reply, jobQueryReply image localId src jobId sendBuffer m.srv = some reply ∧
        (List.range 5).mapM (fun k : ℕ => intAt reply (4 * k)) =
          some [msgTypeJobQuery, localId.1, src, jobId, (m.slotStat jobId).code] := by
  have husage := usage_of_reach h
  refine ⟨fun i hi => husage.jobId_eq hi, ?_⟩
  cases parseRequest_iff.mp hrequest with
  | query htype hsrc hdist hjob =>
      obtain ⟨reply, hreply, hword⟩ := jobQueryReply_single image localId ⟨src, intAt_mem hsrc⟩
        ⟨jobId, intAt_mem hjob⟩ sendBuffer m.srv hid
      refine ⟨reply, hreply, ?_⟩
      rw [← husage.curJobStat_eq_slotStat hid]
      have htype' := hword 0 ⟨msgTypeJobQuery, by decide⟩ rfl
      have hlocal' := hword 1 localId rfl
      have hsrc' := hword 2 ⟨src, intAt_mem hsrc⟩ rfl
      have hjob' := hword 3 ⟨jobId, intAt_mem hjob⟩ rfl
      have hstat' := hword 4 (curJobStat jobId m.srv).word rfl
      show ([0, 1, 2, 3, 4] : List ℕ).mapM (fun k : ℕ => intAt reply (4 * k)) = _
      simp only [List.mapM_cons, List.mapM_nil, htype', hlocal', hsrc', hjob', hstat',
        Option.pure_def, Option.bind_eq_bind, Option.bind_some]
      rfl

/-- After two SUBMITs and the steps in which the pop thread places the first of the two jobs:
it is RUNNING for a query of its id 0, and both slots have their ids. -/
theorem job_lookup_by_slot_placed : ∃ m,
    (masterMachine 1 fun _ => []).run
        (.submit ⟨1, [97], 2, 1, [117], 2⟩ 0 :: .submit ⟨1, [98], 2, 1, [117], 2⟩ 1 ::
          List.replicate 6 (.pop 2)) (.init fun _ => []) = some m ∧
      (m.srv.jobq 0).jobId = 0 ∧ (m.srv.jobq 1).jobId = 1 ∧
      (∀ i, inTable maxJobQueue i → (m.srv.jobq i).jobId = -1 ∨ (m.srv.jobq i).jobId = i) ∧
      ∃ reply, jobQueryReply (fun _ => zeros 344) CInt.one 1 0 zeroBuffer m.srv = some reply ∧
        (List.range 5).mapM (fun k : ℕ => intAt reply (4 * k)) =
          some [msgTypeJobQuery, 1, 1, 0, JobStat.running.code] := by
  have hrun : ((masterMachine 1 fun _ => []).run
      (.submit ⟨1, [97], 2, 1, [117], 2⟩ 0 :: .submit ⟨1, [98], 2, 1, [117], 2⟩ 1 ::
        List.replicate 6 (.pop 2)) (masterMachine 1 fun _ => []).init).any (fun m =>
          decide ((m.srv.jobq 0).jobId = 0 ∧ (m.srv.jobq 1).jobId = 1 ∧
            m.slotStat 0 = .running)) = true := by decide +kernel
  obtain ⟨m, hm, hp⟩ := (Option.any_eq_true _ _).mp hrun
  obtain ⟨hid, hid', hstat⟩ := of_decide_eq_true hp
  obtain ⟨hids, reply, hreply, hwords⟩ := job_lookup_by_slot (Machine.reach_of_run hm)
    (fun _ => zeros 344) CInt.one zeroBuffer
    (parseRequest_encode (show (ClientRequest.query CInt.one CInt.zero (zeros 8)).encode.length ≤
      msgBuffSize by decide) [])
    le_rfl
  refine ⟨m, hm, hid, hid', hids, reply, hreply, ?_⟩
  rw [← hstat]
  exact hwords

end Epbs
