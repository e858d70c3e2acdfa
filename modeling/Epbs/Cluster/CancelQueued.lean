/-
Cancelling a job that no node was given yet.

* `NeverPlaced`: the node counts with which a job is not started anyway;
* `CancelGuard`: only such jobs are cancelled while they wait;
* `Unstarted`: a job in the queue has no submit message, and a job cancelled
  while it waited keeps a node count with which it is not started;
* `cancelled_never_start`: so it never is, over any network;
* `cancelled_job_starts`: the CANCEL looks at the node records only, and a job
  cancelled in the queue is started like any other.
-/
import Epbs.Cluster.Exclusivity
import Epbs.Cluster.Numbering

namespace Epbs

/-! ### Cancelled while waiting -/

/-- Along all runs whose steps of the master meet a guard, a job that was
cancelled while it waited is sent to no node. -/
def CancelledNeverStart (numHosts : ℤ) (accepts : Network) (ips : ℤ → Bytes)
    (G : Master → MasterAct → Prop) : Prop :=
  ∀ s, (clusterMachine numHosts accepts ips).Reach (OnMaster numHosts G) s →
    ∀ t k, .cancelled t ∈ s.master.log → .assigned t k ∉ s.master.log

/-- A job that asks for no node, or for more than there are, is not started. -/
def NeverPlaced (numHosts n : ℤ) : Prop := n ≤ 0 ∨ numHosts < n

/-- A CANCEL finds only such jobs waiting under its id, and the copies of a SUBMIT
and of the pop thread fit their fields. -/
def CancelGuard (numHosts : ℤ) (m : Master) : MasterAct → Prop
  | .submit req _ => req.CopiesFit
  | .pop _ => m.CommandCopies
  | .cancel jobId => ∀ w ∈ m.waitingFor jobId, NeverPlaced numHosts w.2
  | _ => True

/-! ### The invariant -/

/-- A job in the queue has no submit message and is not held, and a job cancelled
while it waited has none either and keeps a node count that starts nothing. -/
structure Unstarted (numHosts : ℤ) (m : Master) : Prop where
  labelled : Labelled m
  placing : Placing numHosts m
  queued : ∀ i, (m.srv.jobq i).jobStat = .inqueue → ∃ t, m.Owns t ∧ slotOf t = i ∧
    m.assigned t = 0 ∧ ∀ j, m.held ≠ some (j, t)
  known : ∀ t, m.assigned t ≠ 0 → t < m.accepted
  cancelled : ∀ t, .cancelled t ∈ m.log → t < m.accepted ∧ m.assigned t = 0 ∧
    (m.Owns t → NeverPlaced numHosts (m.srv.jobq (slotOf t)).numReqNodes) ∧
    ∀ j, m.held = some (j, t) → j.numReqNodes ≤ 0

lemma unstarted_init (numHosts : ℤ) (ips : ℤ → Bytes) : Unstarted numHosts (.init ips) where
  labelled := labelled_init ips
  placing := placing_init numHosts ips
  queued := nofun
  known _ h := absurd rfl h
  cancelled := nofun

namespace Unstarted

variable {numHosts : ℤ} {m m' : Master}

/-- A step that puts no job in the queue, takes none and sends nothing. -/
lemma of_same (h : Unstarted numHosts m) (hlab : Labelled m') (hplace : Placing numHosts m')
    (haccepted : m'.accepted = m.accepted)
    (hstat : ∀ i, (m'.srv.jobq i).jobStat = .inqueue → (m.srv.jobq i).jobStat = .inqueue)
    (hneed : ∀ i, (m'.srv.jobq i).numReqNodes = (m.srv.jobq i).numReqNodes)
    (hheld : ∀ j t, m'.held = some (j, t) → m.held = some (j, t))
    (hsent : ∀ t, m'.assigned t = m.assigned t)
    (hcancel : ∀ t, .cancelled t ∈ m'.log → .cancelled t ∈ m.log) : Unstarted numHosts m' := by
  have howns := Master.owns_congr haccepted
  refine ⟨hlab, hplace, fun i hi => ?_, fun t ht => ?_, fun t ht => ?_⟩
  · obtain ⟨t, ht, hslot, hzero, hnot⟩ := h.queued i (hstat i hi)
    exact ⟨t, (howns t).mpr ht, hslot, (hsent t).trans hzero,
      fun j hj => hnot j (hheld j t hj)⟩
  · rw [hsent] at ht
    rw [haccepted]
    exact h.known t ht
  · obtain ⟨hlt, hzero, hslot, hj⟩ := h.cancelled t (hcancel t ht)
    rw [haccepted, hsent, howns, hneed]
    exact ⟨hlt, hzero, hslot, fun j hheld' => hj j (hheld j t hheld')⟩

/-- A SUBMIT puts the next job in the queue. It takes the slot of an older job, which then owns it
no more, cancelled or not. -/
lemma submit (h : Unstarted numHosts m) (hlab : Labelled m') (hplace : Placing numHosts m')
    {job : BatchJobInfo} (haccepted : m'.accepted = m.accepted + 1) (hheld : m'.held = m.held)
    (hsrv : m'.srv = (m.srv.writeSlot m.srv.jobHead job).advanceHead) (hlog : m'.log = m.log) :
    Unstarted numHosts m' := by
  have hsent : ∀ t, m'.assigned t = m.assigned t := fun t => by
    rw [Master.assigned, hlog, Master.assigned]
  have hhead := h.labelled.numbered.head
  have hjobq : ∀ i, i ≠ m.srv.jobHead → m'.srv.jobq i = m.srv.jobq i := fun i hi => by
    rw [hsrv, Server.advanceHead_jobq, Server.writeSlot_jobq, Function.update_of_ne hi]
  refine ⟨hlab, hplace, fun i hi => ?_, fun t ht => ?_, fun t ht => ?_⟩
  · by_cases heq : i = m.srv.jobHead
    · refine ⟨m.accepted, Master.owns_accepted haccepted, (heq.trans hhead).symm, ?_,
        fun j hj => ?_⟩
      · rw [hsent]
        exact by_contra fun hne => absurd (h.known _ hne) (lt_irrefl _)
      · rw [hheld] at hj
        exact absurd (h.labelled.held j _ hj).1 (lt_irrefl _)
    · rw [hjobq i heq] at hi
      obtain ⟨t, ht, hslot, hzero, hnot⟩ := h.queued i hi
      have hne : slotOf t ≠ slotOf m.accepted := by rwa [hslot, ← hhead]
      exact ⟨t, ht.accept haccepted hne, hslot, (hsent t).trans hzero,
        fun j hj => hnot j (hheld ▸ hj)⟩
  · rw [hsent] at ht
    have := h.known t ht
    omega
  · rw [hlog] at ht
    obtain ⟨hlt, hzero, hslot, hj⟩ := h.cancelled t ht
    refine ⟨by omega, (hsent t).trans hzero, fun hown => ?_, fun j hheld' => hj j (hheld ▸ hheld')⟩
    obtain ⟨hown', hne⟩ := hown.of_accept haccepted (ne_of_lt hlt)
    rw [hjobq _ (hhead ▸ hne)]
    exact hslot hown'

/-- A CANCEL that finds only jobs waiting that are not started anyway: the one in its slot, and
the one in hand as long as no message was sent for it. -/
lemma cancel (h : Unstarted numHosts m) {jobId : ℤ}
    (hg : CancelGuard numHosts m (.cancel jobId)) (hlab : Labelled m')
    (hplace : Placing numHosts m')
    (hm' : m' = { m with
      log := (m.waitingFor jobId).map (fun w => .cancelled w.1) ++ m.log }) :
    Unstarted numHosts m' := by
  have hsent : ∀ t, m'.assigned t = m.assigned t := fun t => by
    rw [hm']
    simp [Master.assigned, List.countP_map, Function.comp_def, Event.isAssigned]
  subst hm'
  refine ⟨hlab, hplace, fun i hi => ?_, fun t ht => ?_, fun t ht => ?_⟩
  · obtain ⟨t, ht, hslot, hzero, hnot⟩ := h.queued i hi
    exact ⟨t, ht, hslot, (hsent t).trans hzero, hnot⟩
  · rw [hsent] at ht
    exact h.known t ht
  · rw [hsent]
    rcases List.mem_append.mp ht with hnew | hold
    · obtain ⟨w, hw, heq⟩ := List.mem_map.mp hnew
      have hnever : NeverPlaced numHosts w.2 := hg w hw
      cases heq
      -- the job was found in the queue, or in the hands of the pop thread
      rcases List.mem_append.mp hw with hq | hheld
      · split_ifs at hq with hstat
        · obtain ⟨u, hown, hslot, hzero, hnot⟩ := h.queued jobId hstat
          have hjob : m.jobOf jobId = u := hslot ▸ (h.labelled.numbered.owner u hown).1
          rw [List.mem_singleton] at hq
          subst hq
          simp only [hjob] at hnever ⊢
          refine ⟨hown.1, hzero, fun _ => by rw [hslot]; exact hnever, fun j hj => ?_⟩
          exact absurd hj (hnot j)
        · cases hq
      · obtain ⟨⟨j, t⟩, hmem, rfl⟩ := List.mem_map.mp hheld
        obtain ⟨hj, htest⟩ := List.mem_filter.mp hmem
        have hj : m.held = some (j, t) := Option.mem_toList.mp hj
        have hzero : m.assigned t = 0 := (of_decide_eq_true htest).2
        obtain ⟨hlt, _, _, hneed⟩ := h.labelled.held j t hj
        refine ⟨hlt, hzero, fun hown => hneed hown ▸ hnever, fun j' hj' => ?_⟩
        have heq : j' = j := by
          have hsame := hj.symm.trans hj'
          cases hsame
          rfl
        have hfits := h.placing.fits j t hj
        rw [heq]
        rcases hnever with hle | hlt'
        · exact hle
        · exact absurd hfits (not_le.mpr hlt')
    · exact h.cancelled t hold

/-- A pop takes the job out of the queue. A cancelled job that is taken asks for no node, as one
that asks for too many is not handed out. -/
lemma take (h : Unstarted numHosts m) {j : PoppedJob} {srv : Server}
    (htake : jobQueueTake m.srv = some (some j, srv)) (hlab : Labelled m')
    (hplace : Placing numHosts m') (hfits : j.numReqNodes ≤ numHosts)
    (haccepted : m'.accepted = m.accepted) (hlog : m'.log = m.log) (hsrv : m'.srv = srv)
    (hheld : m'.held = some (j, m.jobOf m.srv.jobTail)) : Unstarted numHosts m' := by
  obtain ⟨hne, _, _, hneed, rfl⟩ := jobQueueTake_some htake
  obtain ⟨howner, hslot, _⟩ := h.labelled.numbered.exists_taken hne
  have hsent : ∀ t, m'.assigned t = m.assigned t := fun t => by
    rw [Master.assigned, hlog, Master.assigned]
  have howns := Master.owns_congr haccepted
  refine ⟨hlab, hplace, fun i hi => ?_, fun t ht => ?_, fun t ht => ?_⟩
  · rw [hsrv, Server.advanceTail_jobq, Server.writeSlot_jobq, update_start_jobStat] at hi
    split_ifs at hi with htail
    obtain ⟨t, ht, hti, hzero, -⟩ := h.queued i hi
    refine ⟨t, (howns t).mpr ht, hti, (hsent t).trans hzero, fun j' hj' => htail ?_⟩
    rw [hheld] at hj'
    cases hj'
    rw [← hti, hslot]
  · rw [hsent] at ht
    rw [haccepted]
    exact h.known t ht
  · rw [hlog] at ht
    obtain ⟨hlt, hzero, hnever, -⟩ := h.cancelled t ht
    rw [haccepted, hsent, howns, hsrv, Server.advanceTail_jobq, Server.writeSlot_jobq,
      update_start_numReqNodes]
    refine ⟨hlt, hzero, hnever, fun j' hj' => ?_⟩
    rw [hheld] at hj'
    cases hj'
    rcases hnever howner with hle | hlt'
    · rw [hneed, ← hslot]
      exact hle
    · rw [hslot, ← hneed] at hlt'
      exact absurd hfits (not_le.mpr hlt')

/-- A submit message is sent for a job in hand that asks for a node. This is the one step that could
start a cancelled job, and one in hand that was cancelled asks for none. -/
lemma assign (h : Unstarted numHosts m) {j : PoppedJob} {job : ℕ} {i k : ℤ}
    (hpc : m.pop = .dispatch j job i k) (hi : i ≤ j.numReqNodes) (hlab : Labelled m')
    (hplace : Placing numHosts m') (haccepted : m'.accepted = m.accepted)
    (hjobq : m'.srv.jobq = m.srv.jobq) (hheld : m'.held = m.held)
    (hlog : m'.log = .assigned job k :: m.log) : Unstarted numHosts m' := by
  have hjob := Master.held_of_dispatch hpc
  have hsent : ∀ t, t ≠ job → m'.assigned t = m.assigned t := fun t ht => by
    rw [Master.assigned, hlog, countP_isAssigned_cons, if_neg (Ne.symm ht)]
    rfl
  have howns := Master.owns_congr haccepted
  refine ⟨hlab, hplace, fun i hi => ?_, fun t ht => ?_, fun t ht => ?_⟩
  · rw [hjobq] at hi
    obtain ⟨t, ht, hslot, hzero, hnot⟩ := h.queued i hi
    have hne : t ≠ job := fun heq => hnot j (heq ▸ hjob)
    exact ⟨t, (howns t).mpr ht, hslot, (hsent t hne).trans hzero, fun j hj => hnot j (hheld ▸ hj)⟩
  · rw [haccepted]
    by_cases heq : t = job
    · exact heq ▸ (h.labelled.held j job hjob).1
    · rw [hsent t heq] at ht
      exact h.known t ht
  · rw [hlog] at ht
    have ht : .cancelled t ∈ m.log := (List.mem_cons.mp ht).resolve_left fun hc => by cases hc
    obtain ⟨hlt, hzero, hnever, hj⟩ := h.cancelled t ht
    -- a job in hand that was cancelled asks for no node, and its first round is never made
    have hne : t ≠ job := by
      rintro rfl
      have hle := hj j hjob
      have hone := (h.placing.rounds j t i k hpc).1
      omega
    rw [haccepted, hsent t hne, howns, hjobq, hheld]
    exact ⟨hlt, hzero, hnever, hj⟩

/-- **One guarded step of the master** starts no cancelled job. The steps that write no status
and send no message all go through `of_same`. -/
lemma step (h : Unstarted numHosts m) {a : MasterAct} {ps : List Packet}
    (hg : CancelGuard numHosts m a) (hstep : MasterStep numHosts m a m' ps) :
    Unstarted numHosts m' := by
  have hlab := h.labelled.step hstep
  have hplace := h.placing.step hstep
  cases hstep with
  | submit req now pcomm username => exact h.submit hlab hplace rfl rfl rfl rfl
  | cancel jobId hhosts => exact h.cancel hg hlab hplace rfl
  | pop now hpop =>
      cases hpop with
      | init hpc =>
          exact h.of_same hlab hplace rfl (fun _ => id) (fun _ => rfl)
            (fun j t hj => by cases hj) (fun _ => rfl) fun _ => id
      | empty hpc hempty => exact h
      | take hpc htake hfits => exact h.take htake hlab hplace hfits rfl rfl rfl rfl
      | skip hpc htake hlarge =>
          obtain ⟨_, _, _, _, rfl⟩ := jobQueueTake_some htake
          refine h.of_same hlab hplace rfl (fun i hi => ?_) (fun i => by simp)
            (fun j t hj => by cases hj) (fun _ => rfl) fun _ => id
          rw [stamp_jobStat, Server.advanceTail_jobq, Server.writeSlot_jobq,
            update_start_jobStat] at hi
          split_ifs at hi
          exact hi
      | scan hpc | again hpc =>
          exact h.of_same hlab hplace rfl (fun _ => id) (fun _ => rfl)
            (fun _ _ hj => (Master.held_of_wait hpc).trans hj) (fun _ => rfl) fun _ => id
      | enough hpc hi hcount =>
          exact h.of_same hlab hplace rfl (fun i hi => by simpa using hi) (fun i => by simp)
            (fun _ _ hj => (Master.held_of_wait hpc).trans hj) (fun _ => rfl) fun _ => id
      | assign hpc hi hk hin hfree =>
          exact h.assign hpc hi hlab hplace rfl rfl (Master.held_of_dispatch hpc).symm rfl
      | next hpc | giveUp hpc =>
          exact h.of_same hlab hplace rfl (fun _ => id) (fun _ => rfl)
            (fun _ _ hj => (Master.held_of_dispatch hpc).trans hj) (fun _ => rfl) fun _ => id
      | finish hpc hi hin =>
          exact h.of_same hlab hplace rfl (fun _ => id) (fun _ => rfl)
            (fun j t hj => by cases hj) (fun _ => rfl) fun _ => id
  | other msg job now hm2 => exact h
  | report msg job now hm2 hsrc hjob hmore =>
      exact h.of_same hlab hplace rfl (fun _ => id) (fun _ => rfl) (fun _ _ => id)
        (fun t => by simp [Master.assigned, Event.isAssigned]) fun t ht => by simpa using ht
  | lastReport msg job now hm2 hsrc hjob hlast =>
      refine h.of_same hlab hplace rfl (fun i hi => ?_) (fun i => by simp) (fun _ _ => id)
        (fun t => by simp [Master.assigned, Event.isAssigned]) fun t ht => by simpa using ht
      rw [finish_jobStat] at hi
      split_ifs at hi
      exact hi
  | hostStatus msg job =>
      exact h.of_same hlab hplace rfl (fun _ => id) (fun _ => rfl) (fun _ _ => id)
        (fun t => by simp [Master.assigned, Event.isAssigned]) fun t ht => by simpa using ht

end Unstarted

/-! ### Cancelled jobs -/

/-- A cancelled job never starts, over any network, as long as the jobs found
waiting by a CANCEL are not started anyway. -/
theorem cancelled_never_start (numHosts : ℤ) (accepts : Network) (ips : ℤ → Bytes) :
    CancelledNeverStart numHosts accepts ips (CancelGuard numHosts) := by
  intro s h t k hcancel hassigned
  have hinv := cluster_invariant (unstarted_init numHosts ips)
    (fun _ _ _ _ hI hg hstep => Unstarted.step hI hg hstep) h
  have hzero := (hinv.cancelled t hcancel).2.1
  have hpos : 0 < s.master.log.countP (Event.isAssigned t) :=
    List.countP_pos_iff.mpr ⟨_, hassigned, by simp [Event.isAssigned]⟩
  exact absurd hzero (ne_of_gt hpos)

/-- A job for one node is submitted, cancelled, and dispatched. -/
def cancelQueued : List SysAct :=
  [.submit ⟨1, [97], 2, 1, [117], 2⟩ 0, .cancel 0, .pop 0, .pop 0, .pop 0, .pop 0, .pop 0]

/-- **A cancelled job starts**: it was in the queue when its CANCEL was handled,
and is sent to node 1 after that. -/
theorem cancelled_job_starts :
    ¬ CancelledNeverStart 1 lossless (fun _ => []) fun _ _ => True := by
  intro hall
  have hrun : ((clusterMachine 1 lossless fun _ => []).run cancelQueued
      (.init fun _ => [])).any (fun s =>
        decide (.cancelled 0 ∈ s.master.log) && decide (.assigned 0 1 ∈ s.master.log))
          = true := by decide +kernel
  obtain ⟨s, hs, hp⟩ := Machine.exists_reach_of_run hrun
  simp only [Bool.and_eq_true, decide_eq_true_eq] at hp
  exact hall s (hs.mono fun _ _ _ _ _ => trivial) 0 1 hp.1 hp.2

end Epbs
