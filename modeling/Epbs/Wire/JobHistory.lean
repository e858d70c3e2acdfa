/-
What a client learns about its job as time goes by.

* `slot_masterStep`: a slot keeps the request stored in it until a SUBMIT finds the head
  there again;
* `submitted_job_kept`: the id that a SUBMIT returns names its job for the next
  `MAX_JOB_QUEUE - 1` SUBMITs, over any network and with anything else in between, as long
  as no copy of a string leaves its field;
* `JobStep.code_le`: a step of a job never takes its status back;
* `shown_status_forward`: neither do the answers that a client is shown, as long as the job
  has its slot.
-/
import Epbs.Cluster.Delay
import Epbs.Cluster.Slots
import Epbs.Wire.JobReplies

namespace Epbs

/-! ### The slot of a job -/

/-- What SUBMIT stores in a slot for good. -/
def BatchJobInfo.request (job : BatchJobInfo) : QueuedJob × ℤ := (job.queued, job.time1)

/-- SUBMITs are counted, and nothing takes the count back. -/
lemma accepted_masterStep {numHosts : ℤ} {m m' : Master} {a : MasterAct} {ps : List Packet}
    (h : MasterStep numHosts m a m' ps) : m.accepted ≤ m'.accepted := by
  cases h with
  | submit => exact Nat.le_succ _
  | pop now hpop => cases hpop <;> exact le_rfl
  | _ => exact le_rfl

/-- **A slot keeps its request** in every step but the SUBMIT that finds the head there. -/
lemma slot_masterStep {numHosts : ℤ} {m m' : Master} {a : MasterAct} {ps : List Packet}
    (h : MasterStep numHosts m a m' ps) (i : ℤ) :
    ((m'.srv.jobq i).request = (m.srv.jobq i).request ∧ m'.jobOf i = m.jobOf i) ∨
      (i = m.srv.jobHead ∧ m'.accepted = m.accepted + 1) := by
  cases h with
  | submit req now pcomm username =>
      by_cases hi : i = m.srv.jobHead
      · exact .inr ⟨hi, rfl⟩
      · refine .inl ⟨?_, Function.update_of_ne hi ..⟩
        rw [Server.advanceHead_jobq, Server.writeSlot_jobq, Function.update_of_ne hi]
  | pop now hpop =>
      refine .inl ?_
      cases hpop with
      | take hpc htake hfits =>
          obtain ⟨_, _, _, _, rfl⟩ := jobQueueTake_some htake
          exact ⟨Server.writeSlot_field _ (·.request) (by rfl) i, rfl⟩
      | skip hpc htake hlarge =>
          obtain ⟨_, _, _, _, rfl⟩ := jobQueueTake_some htake
          exact ⟨(Server.writeSlot_field _ (·.request) (by rfl) i).trans
            (Server.writeSlot_field _ (·.request) (by rfl) i), rfl⟩
      | enough hpc hi hcount => exact ⟨Server.writeSlot_field _ (·.request) (by rfl) i, rfl⟩
      | _ => exact ⟨rfl, rfl⟩
  | lastReport msg job now hm2 hsrc hjob hlast =>
      exact .inl ⟨Server.writeSlot_field _ (·.request) (by rfl) i, rfl⟩
  | _ => exact .inl ⟨rfl, rfl⟩

/-- What the slot `i` holds as long as the job `t` has it. -/
structure KeptFor (t : ℕ) (i : ℤ) (request : QueuedJob × ℤ) (m : Master) : Prop where
  numbered : Numbered m
  accepted : t < m.accepted
  kept : m.accepted ≤ t + maxJobQueue → (m.srv.jobq i).request = request ∧ m.jobOf i = t

/-- **One step of the master** leaves a job its slot until the ring comes round. -/
lemma KeptFor.step {numHosts : ℤ} {m m' : Master} {a : MasterAct} {ps : List Packet} {t : ℕ}
    {request : QueuedJob × ℤ} (h : KeptFor t (slotOf t) request m)
    (hstep : MasterStep numHosts m a m' ps) : KeptFor t (slotOf t) request m' := by
  have hmono := accepted_masterStep hstep
  refine ⟨h.numbered.step hstep, h.accepted.trans_le hmono, fun hle => ?_⟩
  obtain ⟨hrequest, hjob⟩ := h.kept (hmono.trans hle)
  rcases slot_masterStep hstep (slotOf t) with ⟨hsame, hsame'⟩ | ⟨hhead, haccepted⟩
  · exact ⟨hsame.trans hrequest, hsame'.trans hjob⟩
  · -- the head is at the slot of an older job only when the ring has come round
    rw [h.numbered.head, slotOf_eq_iff] at hhead
    have hlt := h.accepted
    rw [maxJobQueue] at *
    omega

section Cluster

variable {numHosts : ℤ} {accepts : Network} {ips : ℤ → Bytes}

/-- A SUBMIT of the cluster: it is numbered, and its slot is the one at the head. -/
lemma submit_spec {s s₁ : Sys} {req : SubmitRequest} {now : ℤ}
    (h : s.step numHosts accepts (.submit req now) = some s₁) :
    jobMonitorSubmit req now s.master.srv =
        some (s₁.master.srv, ⟨s.master.srv.jobHead, decide (queueFull s.master.srv)⟩) ∧
      s₁.master.accepted = s.master.accepted + 1 ∧
      s₁.master.jobOf s.master.srv.jobHead = s.master.accepted := by
  obtain ⟨⟨m, ps⟩, hm, rfl⟩ := Option.map_eq_some_iff.mp h
  obtain ⟨m', hsub, heq⟩ := Option.map_eq_some_iff.mp hm
  obtain ⟨⟨srv, reply⟩, hjob, rfl⟩ := Option.map_eq_some_iff.mp hsub
  obtain ⟨pcomm, username, -, rfl, hsrv⟩ := jobMonitorSubmit_cases hjob
  cases heq
  exact ⟨hjob, rfl, Function.update_self ..⟩

/-- The slot of a job is in the ring. -/
lemma inTable_slotOf (t : ℕ) : inTable maxJobQueue (slotOf t) := by
  have hbounds := Ring.dist_bounds maxJobQueue_pos 0 t
  rwa [sub_zero] at hbounds

/-- The slot of a job, as the id a client may ask for. -/
def jobIdOf (t : ℕ) : JobId := ⟨slotOf t, inTable_slotOf t⟩

/-- What a run from a SUBMIT on leaves of it. -/
lemma keptFor_of_submit {s s₁ s' : Sys} {req : SubmitRequest} {now : ℤ} {ls : List SysAct}
    (hreach : (clusterMachine numHosts accepts ips).Reach (OnMaster numHosts CopiesFit) s)
    (hguard : (clusterMachine numHosts accepts ips).GuardedRun (OnMaster numHosts CopiesFit)
      (.submit req now :: ls) s)
    (hsubmit : (clusterMachine numHosts accepts ips).step (.submit req now) s = some s₁)
    (hrun : (clusterMachine numHosts accepts ips).run ls s₁ = some s') :
    s.master.srv.jobHead = slotOf s.master.accepted ∧ Usage s'.master ∧
      KeptFor s.master.accepted (slotOf s.master.accepted)
        (s₁.master.srv.jobq (slotOf s.master.accepted)).request s'.master := by
  obtain ⟨-, haccepted, howner⟩ := submit_spec hsubmit
  have hnumbered : ∀ {u : Sys}, (clusterMachine numHosts accepts ips).Reach
      (OnMaster numHosts CopiesFit) u → Numbered u.master := fun hu =>
    cluster_invariant (numbered_init ips) (fun _ _ _ _ hI _ hs => hI.step hs) hu
  have hhead := (hnumbered hreach).head
  -- the first step of the guarded run is the SUBMIT, the others come after it
  obtain ⟨hfits, hguard₁⟩ := hguard s₁ hsubmit
  have hreach₁ := hreach.step hfits hsubmit
  have hstart : KeptFor s.master.accepted (slotOf s.master.accepted)
      (s₁.master.srv.jobq (slotOf s.master.accepted)).request s₁.master :=
    ⟨hnumbered hreach₁, by omega, fun _ => ⟨rfl, hhead ▸ howner⟩⟩
  refine ⟨hhead, usage_of_reach (master_of_cluster (G := Machine.always)
    ((hreach₁.run hguard₁ hrun).mono fun _ _ _ _ _ => trivial)), ?_⟩
  exact hreach₁.along (P := fun u => KeptFor _ _ _ u.master) hguard₁ hrun hstart
    fun u l u' _ _ hs hP => by
      rcases master_sysStep (sysStep_spec hs) with hsame | ⟨a, ps, -, hm⟩
      · rwa [hsame]
      · exact hP.step (masterStep_spec hm)

/-- A job that was kept has its slot. -/
lemma KeptFor.owns {m : Master} {t : ℕ} {i : ℤ} {request : QueuedJob × ℤ}
    (h : KeptFor t i request m) (hfew : m.accepted ≤ t + 1 + (maxJobQueue - 1)) : m.Owns t := by
  have hpos := maxJobQueue_pos
  exact ⟨h.accepted, by omega⟩

/-- **The id of a SUBMIT names its job.** In every run from a SUBMIT on, over any network and
with any requests, steps and reports in between, the copies of whose strings stay inside their
fields: as long as fewer than `MAX_JOB_QUEUE` further SUBMITs were handled, the slot with the
id that the SUBMIT returned has that id, holds what the SUBMIT stored, and belongs to its job;
a query for the id shows the status in that slot.  A copy that leaves its field, in this SUBMIT
or in another one, would write over the slots behind its own. -/
theorem submitted_job_kept {s s₁ s' : Sys} {req : SubmitRequest} {now : ℤ} {ls : List SysAct}
    (hreach : (clusterMachine numHosts accepts ips).Reach (OnMaster numHosts CopiesFit) s)
    (hguard : (clusterMachine numHosts accepts ips).GuardedRun (OnMaster numHosts CopiesFit)
      (.submit req now :: ls) s)
    (hsubmit : (clusterMachine numHosts accepts ips).step (.submit req now) s = some s₁)
    (hrun : (clusterMachine numHosts accepts ips).run ls s₁ = some s')
    (hfew : s'.master.accepted ≤ s₁.master.accepted + (maxJobQueue - 1)) :
    ∃ j : JobId, jobMonitorSubmit req now s.master.srv =
        some (s₁.master.srv, ⟨j, decide (queueFull s.master.srv)⟩) ∧
      (s'.master.srv.jobq j).jobId = j ∧
      (s'.master.srv.jobq j).request = (s₁.master.srv.jobq j).request ∧
      s'.master.jobOf j = s.master.accepted ∧
      ∀ q : QueryPath, shownFor j (queryJobs q j.word s'.master.srv)
        = some [(s'.master.srv.jobq j).jobStat.code] := by
  obtain ⟨hjob, haccepted, -⟩ := submit_spec hsubmit
  obtain ⟨hhead, husage, hend⟩ := keptFor_of_submit hreach hguard hsubmit hrun
  have howns := hend.owns (haccepted ▸ hfew)
  obtain ⟨hrequest, howner⟩ := hend.kept howns.2
  refine ⟨jobIdOf s.master.accepted, ?_, (hend.numbered.owner _ howns).2, hrequest, howner, ?_⟩
  · rw [hjob, hhead]
    rfl
  · intro q
    rw [shownFor_single, curJobStat_eq husage]

end Cluster

/-- The job of a SUBMIT, after the pop thread has placed it and a second SUBMIT was handled. -/
theorem submitted_job_kept_placed : ∃ (s₁ s' : Sys) (j : JobId),
    jobMonitorSubmit ⟨1, [97], 2, 1, [117], 2⟩ 0 (Sys.init fun _ => []).master.srv =
        some (s₁.master.srv, ⟨j, false⟩) ∧
      s'.master.accepted = 2 ∧ (s'.master.srv.jobq j).jobStat = .running ∧
      (s'.master.srv.jobq j).jobId = j ∧
      (s'.master.srv.jobq j).request = (s₁.master.srv.jobq j).request ∧
      s'.master.jobOf j = 0 ∧
      ∀ q : QueryPath, shownFor j (queryJobs q j.word s'.master.srv) = some [2] := by
  have hrun : (((clusterMachine 1 lossless fun _ => []).restrict fun s l =>
      (l.masterAct 1).all fun a => decide (CopiesFit s.master a)).run
        (submitOne :: (List.replicate 6 (.pop 0) ++ [submitOne])) (.init fun _ => [])).any
          (fun s' => decide (s'.master.accepted = 2 ∧
            (s'.master.srv.jobq 0).jobStat = .running)) = true := by
    decide +kernel
  obtain ⟨s', hguard, hrun', hp⟩ := exists_guardedRun_of_tested CopiesFit hrun
  obtain ⟨haccepted, hstat⟩ := of_decide_eq_true hp
  obtain ⟨s₁, hsubmit, hrest⟩ := Option.bind_eq_some_iff.mp hrun'
  have hfirst : s₁.master.accepted = 1 := by
    cases Option.some.inj hsubmit
    rfl
  have hfew : s'.master.accepted ≤ s₁.master.accepted + (maxJobQueue - 1) := by
    rw [haccepted, hfirst]
    decide
  obtain ⟨j, hjob, hid, hrequest, howner, hquery⟩ :=
    submitted_job_kept .init hguard hsubmit hrest hfew
  have hreply := congrArg (Option.map fun r => r.2.newJobId) hjob
  have hj : j.1 = 0 := (Option.some.inj hreply).symm
  rw [← hj] at hstat
  refine ⟨s₁, s', j, hjob, haccepted, hstat, hid, hrequest, howner, fun q => ?_⟩
  rw [hquery q, hstat]
  rfl

/-! ### The status of a job -/

/-- A step of a job never takes its status back. -/
lemma JobStep.code_le {numHosts : ℤ} {a : JobAct} {v v' : JobView} (h : v.Ok)
    (hstep : JobStep numHosts v a v') : v.stat.code ≤ v'.stat.code := by
  have hphase := h.2
  cases hstep with
  | take hp | skip hp =>
      simp only [hp] at hphase
      rw [hphase.1]
      exact show JobStat.inqueue.code ≤ JobStat.running.code by decide
  | lastReport hsent hlast =>
      show v.stat.code ≤ JobStat.finished.code
      by_cases hfin : v.finished = true
      · rw [(h.of_finished hfin).2.1]
      · rw [h.stat_of_not_finished (Bool.not_eq_true _ ▸ hfin)]
        split_ifs <;> decide
  | _ => exact le_rfl

/-- The status of a job in its slot is not UNKNOW. -/
lemma JobView.Ok.stat_ne_unknow {v : JobView} (h : v.Ok) : v.stat ≠ .unknow := by
  by_cases hfin : v.finished = true
  · rw [(h.of_finished hfin).2.1]
    nofun
  · rw [h.stat_of_not_finished (Bool.not_eq_true _ ▸ hfin)]
    split_ifs <;> nofun

/-- **One guarded step of the ledger** takes no status back, as long as the job has its
slot. -/
lemma Live.code_le {L L' : Ledger} (h : Live L) {numHosts : ℤ} {a : MasterAct}
    (hstep : L.step numHosts a = some L') {t : ℕ} (ht : L.master.Owns t)
    (ht' : L'.master.Owns t) :
    (L.master.view t).stat.code ≤ (L'.master.view t).stat.code := by
  cases h.jobsStep hstep with
  | same haccepted hviews => rw [hviews]
  | one t₀ act hact howns haccepted hjob hlife hviews =>
      by_cases heq : t = t₀
      · subst heq
        exact hjob.code_le (h.ok t howns)
      · rw [hviews t fun hslot => heq (ht.eq_of_slotOf_eq howns hslot)]
  | submit hact haccepted hnew hlife hviews =>
      have hne : t ≠ L.master.accepted := ht.1.ne
      rw [hviews t (ht'.of_accept haccepted hne).2]

/-- The status of a job in its slot, from a state to a later one over a lossless network. -/
lemma stat_forward {numHosts : ℤ} {ips : ℤ → Bytes} {s s' : Sys} {ls : List SysAct}
    (hreach : (clusterMachine numHosts lossless ips).Reach (OnMaster numHosts FreshSlots) s)
    (hguard : (clusterMachine numHosts lossless ips).GuardedRun (OnMaster numHosts FreshSlots) ls s)
    (hrun : (clusterMachine numHosts lossless ips).run ls s = some s')
    {t : ℕ} (ht : t < s.master.accepted) (ht' : s'.master.Owns t) :
    (s.master.view t).stat.code ≤ (s'.master.view t).stat.code ∧
      (s'.master.view t).stat ≠ .unknow := by
  have hforward : s.master.accepted ≤ s'.master.accepted ∧ (s'.master.Owns t →
      (s.master.view t).stat.code ≤ (s'.master.view t).stat.code) := by
    refine hreach.along (P := fun u => s.master.accepted ≤ u.master.accepted ∧
      (u.master.Owns t → (s.master.view t).stat.code ≤ (u.master.view t).stat.code))
      hguard hrun ⟨le_rfl, fun _ => le_rfl⟩ ?_
    rintro u l u' hu hg hs ⟨hmono, hle⟩
    rcases ledger_sysStep (sysStep_spec hs) with hsame | ⟨a, -, hled⟩
    · have hmaster : u'.master = u.master := congrArg Ledger.master hsame
      rw [hmaster]
      exact ⟨hmono, hle⟩
    · have hlive := live_of_reach (fun _ _ => id) hu
      obtain ⟨ps, hm, -, -⟩ := ledgerStep_spec hled
      have haccepted := accepted_masterStep hm
      refine ⟨hmono.trans haccepted, fun hown' => ?_⟩
      have hown : u.master.Owns t :=
        ⟨ht.trans_le hmono, haccepted.trans hown'.2⟩
      exact (hle hown).trans (hlive.code_le hled hown hown')
  exact ⟨hforward.2 ht',
    ((live_of_reach (fun _ _ => id) (hreach.run hguard hrun)).ok t ht').stat_ne_unknow⟩

/-- **A client never sees its job go back.** In every state of a run over any network in which
each SUBMIT comes after the job stored in its slot before was marked FINISHED, and in every
state after it in which the job still has its slot, the queries for the job show one status
each: INQUEUE, RUNNING or FINISHED, and the later one is not before the earlier one. -/
theorem shown_status_forward {numHosts : ℤ} {accepts : Network} {ips : ℤ → Bytes} {s s' : Sys}
    {ls : List SysAct}
    (hreach : (clusterMachine numHosts accepts ips).Reach (OnMaster numHosts FreshSlots) s)
    (hguard : (clusterMachine numHosts accepts ips).GuardedRun (OnMaster numHosts FreshSlots) ls s)
    (hrun : (clusterMachine numHosts accepts ips).run ls s = some s')
    {t : ℕ} (ht : t < s.master.accepted) (ht' : s'.master.Owns t) (q q' : QueryPath) :
    ∃ earlier later : JobStat,
      shownFor (jobIdOf t) (queryJobs q (jobIdOf t).word s.master.srv) = some [earlier.code] ∧
      shownFor (jobIdOf t) (queryJobs q' (jobIdOf t).word s'.master.srv) = some [later.code] ∧
      earlier.code ≤ later.code ∧ later ≠ .unknow := by
  have hshown : ∀ {u : Sys}, (clusterMachine numHosts accepts ips).Reach
      (OnMaster numHosts FreshSlots) u → ∀ q : QueryPath,
        shownFor (jobIdOf t) (queryJobs q (jobIdOf t).word u.master.srv)
          = some [(u.master.view t).stat.code] := by
    intro u hu q
    have husage : Usage u.master := usage_of_reach (master_of_cluster (G := Machine.always)
      (hu.mono fun _ _ _ _ _ => trivial))
    rw [shownFor_single, curJobStat_eq husage]
    rfl
  refine ⟨_, _, hshown hreach q, hshown (hreach.run hguard hrun) q', ?_⟩
  obtain ⟨u, u', hu, hguardu, hrunu, hdelay, hdelay'⟩ := delayed_run hreach hguard hrun
  rw [← hdelay.master] at ht ⊢
  rw [← hdelay'.master] at ht' ⊢
  exact stat_forward hu hguardu hrunu ht ht'

/-- A job that is placed, from a state in which it is in the queue. -/
theorem shown_status_forward_placed : ∃ s s' : Sys,
    (s.master.srv.jobq 0).jobStat = .inqueue ∧ (s'.master.srv.jobq 0).jobStat = .running ∧
      ∃ earlier later : JobStat,
        shownFor (jobIdOf 0) (queryJobs zeroPath (jobIdOf 0).word s.master.srv)
          = some [earlier.code] ∧
        shownFor (jobIdOf 0) (queryJobs zeroPath (jobIdOf 0).word s'.master.srv)
          = some [later.code] ∧
        earlier.code ≤ later.code ∧ later ≠ .unknow := by
  have hrun : (((clusterMachine 1 lossless fun _ => []).restrict fun s l =>
      (l.masterAct 1).all fun a => decide (FreshSlots s.master a)).run
        (submitOne :: List.replicate 6 (.pop 0)) (.init fun _ => [])).any
          (fun s' => decide (s'.master.accepted = 1 ∧
            (s'.master.srv.jobq 0).jobStat = .running)) = true := by
    decide +kernel
  obtain ⟨s', hguard, hrun', hp⟩ := exists_guardedRun_of_tested FreshSlots hrun
  obtain ⟨haccepted', hstat'⟩ := of_decide_eq_true hp
  -- the state after the SUBMIT, which is the first step of the run
  obtain ⟨s, hsubmit, hrest⟩ := Option.bind_eq_some_iff.mp hrun'
  obtain ⟨hfresh, hguard₁⟩ := hguard s hsubmit
  have hreach := Machine.Reach.init.step hfresh hsubmit
  have hqueued : s.master.accepted = 1 ∧ (s.master.srv.jobq 0).jobStat = .inqueue := by
    cases Option.some.inj hsubmit
    exact ⟨rfl, rfl⟩
  obtain ⟨haccepted, hstat⟩ := hqueued
  have howns : s'.master.Owns 0 := by
    rw [Master.Owns, haccepted']
    decide
  exact ⟨s, s', hstat, hstat', shown_status_forward hreach hguard₁ hrest
    (by rw [haccepted]; exact Nat.one_pos) howns zeroPath zeroPath⟩

end Epbs
