/-
A SUBMIT of any bytes: what `job_monitor_etransfer` reads for it and what it changes.

* `handleSubmit`: the SUBMIT branch on the receive buffer;
* `Confined`: at most the slot at the head and the head change, and the strings of the
  slot end inside their arrays;
* `SubmitFits`: the header and both strings were received, and the two formatted copies
  fit their arrays;
* `submit_touches_own_slot_iff`: the branch reads received bytes only and is confined exactly
  when the SUBMIT fits.
-/
import Epbs.Wire.Requests

namespace Epbs

open Words

/-- `MSG_TYPE_JOB_SUBMIT` in `job_monitor_etransfer`, on its receive buffer. -/
def handleSubmit (recvBuffer : Bytes) (now : ℤ) (s : Server) : Option (Server × SubmitReply) :=
  match parseRequest recvBuffer with
  | some (.submit req) => jobMonitorSubmit req now s
  | _ => none

/-- The strings of a slot end inside `pcomm[256]` and `username[32]`. -/
structure BatchJobInfo.Terminated (job : BatchJobInfo) : Prop where
  pcomm : job.pcomm.length < 256 ∧ 0 ∉ job.pcomm
  username : job.username.length < 32 ∧ 0 ∉ job.username

/-- The request was rejected, or at most the slot at the head and the head changed. -/
def Confined (s s' : Server) : Prop :=
  s' = s ∨ ∃ job head, job.Terminated ∧
    s' = { s with jobq := Function.update s.jobq s.jobHead job, jobHead := head }

/-- **A SUBMIT touches only its own slot**: it reads bytes of its own connection only,
and what it changes is confined. -/
structure TouchesOwnSlot (received stale : Bytes) (now : ℤ) (s : Server) : Prop where
  reads : (parseRequest received).isSome
  writes : ∃ s' reply, handleSubmit (received ++ stale) now s = some (s', reply) ∧ Confined s s'

/-- The header and both strings of a SUBMIT were received, and the copies of the strings,
which are the formats, fit their arrays. -/
def SubmitFits (received : Bytes) : Prop :=
  let commStrLen := decodeInt ((received.drop 12).take 4)
  let usernameLen := decodeInt ((received.drop 20).take 4)
  let commStr := (received.drop 24).takeWhile (· ≠ 0)
  let username := (received.drop (24 + commStrLen).toNat).takeWhile (· ≠ 0)
  24 ≤ received.length ∧ 0 ∈ received.drop 24 ∧
    0 ≤ 24 + commStrLen ∧ 0 ∈ received.drop (24 + commStrLen).toNat ∧
    (sprintf 256 commStr commStrLen).isSome ∧ (sprintf 32 username usernameLen).isSome

instance (received : Bytes) : Decidable (SubmitFits received) :=
  inferInstanceAs (Decidable (_ ∧ _ ∧ _ ∧ _ ∧ _ ∧ _))

/-- A SUBMIT whose copies fit is confined. -/
lemma confined_of_submit {req : SubmitRequest} {now : ℤ} {s s' : Server} {reply : SubmitReply}
    (h : jobMonitorSubmit req now s = some (s', reply)) : Confined s s' := by
  obtain ⟨pcomm, hpcomm, h⟩ := Option.bind_eq_some_iff.mp h
  obtain ⟨username, husername, h⟩ := Option.bind_eq_some_iff.mp h
  obtain ⟨rfl, -⟩ := Prod.mk.inj (Option.some.inj h)
  refine .inr ⟨req.store pcomm username now s.jobHead (s.jobq s.jobHead), _, ⟨?_, ?_⟩, rfl⟩
  · exact ⟨sprintf_length_lt hpcomm, sprintf_nul_free hpcomm⟩
  · exact ⟨sprintf_length_lt husername, sprintf_nul_free husername⟩

/-- The words and strings of a SUBMIT, where they are read. -/
lemma parsed_submit_iff {buf : Bytes} (htype : intAt buf 0 = some msgTypeJobSubmit)
    {req : SubmitRequest} :
    parseRequest buf = some (.submit req) ↔
      (24 ≤ buf.length ∧ 0 ∈ buf.drop 24 ∧
        0 ≤ 24 + req.commStrLen ∧ 0 ∈ buf.drop (24 + req.commStrLen).toNat) ∧
      decodeInt ((buf.drop 4).take 4) = req.src ∧
      decodeInt ((buf.drop 12).take 4) = req.commStrLen ∧
      decodeInt ((buf.drop 16).take 4) = req.numReqNodes ∧
      decodeInt ((buf.drop 20).take 4) = req.usernameLen ∧
      (buf.drop 24).takeWhile (· ≠ 0) = req.commStr ∧
      (buf.drop (24 + req.commStrLen).toNat).takeWhile (· ≠ 0) = req.username := by
  have hnat : ∀ k : ℕ, (k : ℤ).toNat = k := Int.toNat_natCast
  rw [parseRequest_iff]
  constructor
  · intro h
    cases h with
    | submit htype hsrc hdist hlen hnodes hulen hcomm huser =>
        rw [intAt_eq_some_iff] at hsrc hlen hnodes hulen
        rw [cstrAt_eq_some_iff] at hcomm huser
        refine ⟨⟨?_, hcomm.1.2, huser.1⟩, hsrc.2, hlen.2, hnodes.2, hulen.2, hcomm.2, huser.2⟩
        omega
  · rintro ⟨⟨hsize, hcomm, huser⟩, hsrc, hlen, hnodes, hulen, hcommStr, husername⟩
    have hword : ∀ (k : ℕ) (n : ℤ), k + 4 ≤ 24 → decodeInt ((buf.drop k).take 4) = n →
        intAt buf k = some n := by
      intro k n hk hn
      exact intAt_eq_some_iff.mpr ⟨by omega, hn⟩
    exact .submit htype (hword 4 _ (by norm_num) hsrc) (hword 8 _ (by norm_num) rfl)
      (hword 12 _ (by norm_num) hlen) (hword 16 _ (by norm_num) hnodes)
      (hword 20 _ (by norm_num) hulen)
      (cstrAt_eq_some_iff.mpr ⟨⟨by norm_num, hcomm⟩, hcommStr⟩)
      (cstrAt_eq_some_iff.mpr ⟨huser, husername⟩)

/-- The request that is read from a SUBMIT whose bytes were received. -/
def requestOf (received : Bytes) : SubmitRequest where
  src := decodeInt ((received.drop 4).take 4)
  commStr := (received.drop 24).takeWhile (· ≠ 0)
  commStrLen := decodeInt ((received.drop 12).take 4)
  numReqNodes := decodeInt ((received.drop 16).take 4)
  username := (received.drop (24 + decodeInt ((received.drop 12).take 4)).toNat).takeWhile (· ≠ 0)
  usernameLen := decodeInt ((received.drop 20).take 4)

section OwnSlot

variable {received stale : Bytes} {now : ℤ} {s : Server}

/-- A SUBMIT that fits touches its own slot only. -/
lemma touchesOwnSlot_of_fits (htype : intAt (received ++ stale) 0 = some msgTypeJobSubmit)
    (h : SubmitFits received) : TouchesOwnSlot received stale now s := by
  obtain ⟨hsize, hcomm, hoff, huser, hpcomm, husername⟩ := h
  have htype' : intAt received 0 = some msgTypeJobSubmit := by
    obtain ⟨n, hn⟩ := Option.isSome_iff_exists.mp
      (intAt_isSome_iff.mpr ⟨le_rfl, by omega⟩ : (intAt received 0).isSome)
    exact hn.trans ((intAt_append hn stale).symm.trans htype)
  have hreq : parseRequest received = some (.submit (requestOf received)) :=
    (parsed_submit_iff htype').mpr
      ⟨⟨hsize, hcomm, hoff, huser⟩, rfl, rfl, rfl, rfl, rfl, rfl⟩
  obtain ⟨⟨s', reply⟩, hsubmit⟩ := Option.isSome_iff_exists.mp
    (jobMonitorSubmit_isSome_iff.mpr ⟨hpcomm, husername⟩ :
      (jobMonitorSubmit (requestOf received) now s).isSome)
  refine ⟨Option.isSome_of_eq_some hreq, s', reply, ?_, confined_of_submit hsubmit⟩
  rw [handleSubmit, parseRequest_append hreq]
  exact hsubmit

/-- A SUBMIT that touches its own slot only fits. -/
lemma fits_of_touchesOwnSlot (h : TouchesOwnSlot received stale now s) : SubmitFits received := by
  obtain ⟨s', reply, hsubmit, -⟩ := h.writes
  obtain ⟨req, hreq⟩ := Option.isSome_iff_exists.mp h.reads
  have hbuffer := parseRequest_append hreq stale
  rw [handleSubmit, hbuffer] at hsubmit
  cases req with
  | submit req =>
      have htype' : intAt received 0 = some msgTypeJobSubmit := by
        cases parseRequest_iff.mp hreq with
        | submit hword => exact hword
      obtain ⟨⟨hsize, hcomm, hoff, huser⟩, -, hlen, -, hulen, hcommStr, husername⟩ :=
        (parsed_submit_iff htype').mp hreq
      obtain ⟨hcopy, hcopy'⟩ := jobMonitorSubmit_isSome_iff.mp (Option.isSome_of_eq_some hsubmit)
      rw [SubmitFits, hlen, hulen, hcommStr, husername]
      exact ⟨hsize, hcomm, hoff, huser, hcopy, hcopy'⟩
  | cancel | query | other => cases hsubmit

/-- **A SUBMIT touches only its own slot** exactly when its header and both strings were
received and the copies of the strings fit. -/
theorem submit_touches_own_slot_iff
    (htype : intAt (received ++ stale) 0 = some msgTypeJobSubmit) :
    TouchesOwnSlot received stale now s ↔ SubmitFits received :=
  ⟨fits_of_touchesOwnSlot, touchesOwnSlot_of_fits htype⟩

end OwnSlot

/-- A SUBMIT of the command `a`. -/
def submitBytes : Bytes :=
  encodeInts [msgTypeJobSubmit, 1, 1, 2, 1, 2] ++ [97, 0, 117, 0]

theorem submit_touches_own_slot_iff_submitBytes :
    TouchesOwnSlot submitBytes [] 0 (configure fun _ => []) ↔ SubmitFits submitBytes :=
  submit_touches_own_slot_iff (by decide)

/-- A SUBMIT of a command of 256 bytes. -/
def longSubmit : Bytes :=
  encodeInts [msgTypeJobSubmit, 1, 1, 257, 1, 2] ++ (List.replicate 256 97 ++ [0, 117, 0])

/-- The copy of a long command leaves `pcomm`. -/
theorem long_submit_leaves_pcomm :
    intAt (longSubmit ++ []) 0 = some msgTypeJobSubmit ∧
      ¬TouchesOwnSlot longSubmit [] 0 (configure fun _ => []) := by
  refine ⟨by decide +kernel, fun h => ?_⟩
  have hnot : ¬SubmitFits longSubmit := by decide +kernel
  exact hnot (fits_of_touchesOwnSlot h)

end Epbs
