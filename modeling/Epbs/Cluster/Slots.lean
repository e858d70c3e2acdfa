/-
The jobs of the master, each in its slot.

* `Tallied`: submit messages sent are reports handled or dispatches outstanding,
  and a dispatch carries the slot of its job for an id; on every run;
* `Master.view`: what the tables say about a job that owns its slot, and
  `JobsStep`: a step of the master is a step of one job, of none, or a SUBMIT;
* `FreshSlots`: a SUBMIT comes after the job stored in its slot before was marked
  FINISHED, and the copies fit; `Live`: what then holds of all jobs at once;
* `live_ids_unique`: under that guard a SUBMIT never takes the id of an
  unfinished job and a report never reaches another job's counter;
* `submit_over_running_job`: without it, it does.
-/
import Epbs.Cluster.Exclusivity
import Epbs.Cluster.JobLife
import Epbs.Cluster.Numbering

namespace Epbs

/-! ### Messages and reports -/

/-- The number of outstanding dispatches of a job. -/
def dispatchesOf (out : Multiset Dispatch) (t : ℕ) : ℕ := out.countP fun d => d.job = t

/-- Every submit message is answered by a handled report or outstanding, and
carries the slot of its job for an id. -/
structure Tallied (L : Ledger) : Prop where
  labelled : Labelled L.master
  tally : ∀ t, L.master.assigned t = L.master.handled t + dispatchesOf L.out t
  ids : ∀ d ∈ L.out, d.job < L.master.accepted ∧ d.jobId = slotOf d.job

lemma tallied_init (ips : ℤ → Bytes) : Tallied ⟨.init ips, 0⟩ where
  labelled := labelled_init ips
  tally _ := rfl
  ids d hd := absurd hd (Multiset.notMem_zero d)

namespace Tallied

variable {L L' : Ledger}

/-- A step with no message and no report. -/
lemma of_same (h : Tallied L) (hlab : Labelled L'.master)
    (haccepted : L.master.accepted ≤ L'.master.accepted)
    (hsent : ∀ t, L'.master.assigned t = L.master.assigned t)
    (hheard : ∀ t, L'.master.handled t = L.master.handled t) (hout : L'.out = L.out) :
    Tallied L' where
  labelled := hlab
  tally t := by rw [hsent, hheard, hout, h.tally]
  ids d hd := by
    rw [hout] at hd
    obtain ⟨hlt, hid⟩ := h.ids d hd
    exact ⟨lt_of_lt_of_le hlt haccepted, hid⟩

/-- A submit message. -/
lemma assign (h : Tallied L) (hlab : Labelled L'.master)
    (haccepted : L'.master.accepted = L.master.accepted) {j : PoppedJob} {job : ℕ}
    (hheld : L.master.held = some (j, job)) (k : ℤ)
    (hlog : L'.master.log = .assigned job k :: L.master.log)
    (hout : L'.out = ⟨job, k, j.jobId⟩ ::ₘ L.out) : Tallied L' := by
  obtain ⟨hlt, _, hid, _⟩ := h.labelled.held j job hheld
  refine ⟨hlab, fun t => ?_, fun d hd => ?_⟩
  · have ht := h.tally t
    simp only [Master.assigned, Master.handled, dispatchesOf] at ht ⊢
    rw [hlog, hout, Multiset.countP_cons, countP_isAssigned_cons,
      List.countP_cons_of_neg (by simp [Event.isHandled]), ht, add_assoc]
  · rw [haccepted]
    rw [hout] at hd
    rcases Multiset.mem_cons.mp hd with rfl | hd
    · exact ⟨hlt, hid⟩
    · exact h.ids d hd

/-- A report. -/
lemma report (h : Tallied L) (hlab : Labelled L'.master)
    (haccepted : L'.master.accepted = L.master.accepted) {d : Dispatch} (hd : d ∈ L.out)
    (hsent : ∀ t, L'.master.assigned t = L.master.assigned t)
    (hheard : ∀ t, L'.master.handled t = L.master.handled t + if d.job = t then 1 else 0)
    (hout : L'.out = L.out.erase d) : Tallied L' := by
  refine ⟨hlab, fun t => ?_, fun e he => ?_⟩
  · have ht := h.tally t
    have hsplit : dispatchesOf L.out t
        = dispatchesOf (L.out.erase d) t + if d.job = t then 1 else 0 := by
      conv_lhs => rw [← Multiset.cons_erase hd]
      exact Multiset.countP_cons ..
    rw [hsent, hheard, hout]
    omega
  · rw [haccepted]
    rw [hout] at he
    exact h.ids e (Multiset.mem_of_mem_erase he)

/-- **One step of the ledger** keeps the tally: a dispatch is assigned once, and leaves the
outstanding ones when its report is handled. -/
lemma step {numHosts : ℤ} {a : MasterAct} (h : Tallied L)
    (hstep : L.step numHosts a = some L') : Tallied L' := by
  obtain ⟨ps, hm, hans, hout⟩ := ledgerStep_spec hstep
  have hlab := h.labelled.step hm
  obtain ⟨m', out'⟩ := L'
  dsimp only at hm hout hlab
  subst hout
  cases hm with
  | submit req now pcomm username =>
      exact h.of_same hlab (Nat.le_succ _) (fun _ => rfl) (fun _ => rfl) (add_zero _)
  | cancel jobId hhosts =>
      refine h.of_same hlab le_rfl (fun t => ?_) (fun t => ?_) ?_
      · simp [Master.assigned, List.countP_map, Function.comp_def, Event.isAssigned]
      · simp [Master.handled, List.countP_map, Function.comp_def, Event.isHandled]
      · simp [outAfter, List.filterMap_map, Function.comp_def]
  | pop now hpop =>
      cases hpop with
      | @assign j job i k hpc hi hk hin hfree =>
          refine h.assign hlab rfl (Master.held_of_dispatch hpc) k rfl ?_
          exact (add_comm _ _).trans (Multiset.singleton_add ..)
      | _ => exact h.of_same hlab le_rfl (fun _ => rfl) (fun _ => rfl) (add_zero _)
  | other msg job now hm2 =>
      exact h.of_same hlab le_rfl (fun _ => rfl) (fun _ => rfl) (if_neg hm2)
  | report msg job now hm2 hsrc hjob hmore =>
      refine h.report hlab rfl (hans hm2) (fun t => ?_) (fun t => ?_) (if_pos hm2)
      · simp [Master.assigned, Event.isAssigned]
      · exact countP_isHandled_cons ..
  | lastReport msg job now hm2 hsrc hjob hlast =>
      refine h.report hlab rfl (hans hm2) (fun t => ?_) (fun t => ?_) (if_pos hm2)
      · simp [Master.assigned, Event.isAssigned]
      · rw [Master.handled, List.countP_cons_of_neg (by simp [Event.isHandled]),
          countP_isHandled_cons]
        rfl
  | hostStatus msg job =>
      refine h.of_same hlab le_rfl (fun t => ?_) (fun t => ?_) (add_zero _)
      · simp [Master.assigned, Event.isAssigned]
      · simp [Master.handled, Event.isHandled]

end Tallied

/-! ### The view of a job -/

/-- The phase of a job that was taken from the queue. -/
def PopPc.phase (pc : PopPc) (t : ℕ) : JobPhase :=
  match pc with
  | .wait _ job _ _ => if job = t then .waiting else .placed
  | .dispatch _ job i k => if job = t then .dispatching i k else .placed
  | .start | .idle => .placed

/-- What the tables and the history say about a job, as long as it owns its slot. -/
def Master.view (m : Master) (t : ℕ) : JobView where
  phase := if m.popped ≤ t then .queued else m.pop.phase t
  stat := (m.srv.jobq (slotOf t)).jobStat
  need := (m.srv.jobq (slotOf t)).numReqNodes
  counter := m.srv.jobnodes (slotOf t)
  sent := m.assigned t
  heard := m.handled t
  finished := m.finished t

namespace Master

variable {m m' : Master}

/-- A job that is not in hand was placed. -/
lemma phase_of_held {j : PoppedJob} {t₀ t : ℕ} (hheld : m.held = some (j, t₀)) (ht : t ≠ t₀) :
    m.pop.phase t = .placed := by
  rw [held] at hheld
  cases hpc : m.pop with
  | start | idle => rfl
  | wait j' job count i =>
      rw [hpc] at hheld
      cases hheld
      exact if_neg (Ne.symm ht)
  | dispatch j' job i k =>
      rw [hpc] at hheld
      cases hheld
      exact if_neg (Ne.symm ht)

/-- A step without history shows in the phases and the counters. -/
lemma view_of_log (hlog : m'.log = m.log) (hpopped : m'.popped = m.popped)
    (hstat : ∀ i, (m'.srv.jobq i).jobStat = (m.srv.jobq i).jobStat)
    (hneed : ∀ i, (m'.srv.jobq i).numReqNodes = (m.srv.jobq i).numReqNodes) (t : ℕ) :
    m'.view t =
      { m.view t with
        phase := if m.popped ≤ t then .queued else m'.pop.phase t
        counter := m'.srv.jobnodes (slotOf t) } := by
  simp only [view, assigned, handled, finished, hlog, hpopped, hstat, hneed]

/-- A step of the pop thread within a phase does not show. -/
lemma view_of_phase {srv : Server} {pop : PopPc} (hjobq : srv.jobq = m.srv.jobq)
    (hjobnodes : srv.jobnodes = m.srv.jobnodes) (hphase : ∀ t, pop.phase t = m.pop.phase t)
    (t : ℕ) : view { m with srv := srv, pop := pop } t = m.view t := by
  simp only [view, hjobq, hjobnodes, hphase]
  rfl

/-- A report shows in the counter of the slot, and in the history of the job. -/
lemma view_report (src : ℤ) (job t : ℕ) :
    view { m with
        srv := m.srv.countDown src (slotOf job)
        log := .handled job src :: m.log } t =
      { m.view t with
        counter := if slotOf t = slotOf job then (m.view job).counter - 1 else (m.view t).counter
        heard := (m.view t).heard + if job = t then 1 else 0 } := by
  simp only [view, assigned, handled, finished, countDown_jobnodes, Function.update_apply,
    countP_isHandled_cons, JobView.mk.injEq, List.mem_cons, reduceCtorEq, false_or, true_and]
  exact ⟨rfl, rfl, List.countP_cons_of_neg Bool.false_ne_true, trivial⟩

/-- A job that is marked FINISHED shows in the status of the slot. -/
lemma view_finish (now : ℤ) (job t : ℕ) :
    view { m with
        srv := m.srv.finish (slotOf job) now
        log := .finished job :: m.log } t =
      { m.view t with
        stat := if slotOf t = slotOf job then .finished else (m.view t).stat
        finished := t = job || (m.view t).finished } := by
  simp only [view, assigned, handled, finished, finish_jobStat, finish_numReqNodes,
    finish_jobnodes, JobView.mk.injEq, List.mem_cons, Event.finished.injEq, Bool.decide_or,
    true_and]
  exact ⟨List.countP_cons_of_neg Bool.false_ne_true, List.countP_cons_of_neg Bool.false_ne_true,
    trivial⟩

/-- The last report of a job shows in both ways. -/
lemma view_lastReport (src now : ℤ) (job t : ℕ) :
    view { m with
        srv := (m.srv.countDown src (slotOf job)).finish (slotOf job) now
        log := .finished job :: .handled job src :: m.log } t =
      { m.view t with
        counter := if slotOf t = slotOf job then (m.view job).counter - 1 else (m.view t).counter
        heard := (m.view t).heard + if job = t then 1 else 0
        stat := if slotOf t = slotOf job then .finished else (m.view t).stat
        finished := t = job || (m.view t).finished } := by
  let m' : Master := { m with
    srv := m.srv.countDown src (slotOf job)
    log := .handled job src :: m.log }
  refine (view_finish (m := m') now job t).trans ?_
  rw [view_report]

end Master

/-- Two views that differ in the slot at most. -/
structure JobView.SameLife (v v' : JobView) : Prop where
  phase : v'.phase = v.phase
  sent : v'.sent = v.sent
  heard : v'.heard = v.heard
  finished : v'.finished = v.finished

/-- The steps of the master that can change a job. -/
def JobAct.Of (t : ℕ) : JobAct → MasterAct → Prop
  | .pop, a => ∃ now, a = .pop now
  | .report, a => ∃ msg now, a = .result msg t now

/-- **What a step of the master does to the jobs**: nothing, a step of one job
that owns its slot, or a SUBMIT of the next job. -/
inductive JobsStep (numHosts : ℤ) (a : MasterAct) (m m' : Master) : Prop
  | same (haccepted : m'.accepted = m.accepted) (hviews : ∀ t, m'.view t = m.view t)
  | one (t₀ : ℕ) (act : JobAct) (hact : act.Of t₀ a) (howns : m.Owns t₀)
      (haccepted : m'.accepted = m.accepted)
      (hstep : JobStep numHosts (m.view t₀) act (m'.view t₀))
      (hlife : ∀ t, t ≠ t₀ → (m.view t).SameLife (m'.view t))
      (hviews : ∀ t, slotOf t ≠ slotOf t₀ → m'.view t = m.view t)
  | submit (hact : ∃ req now, a = .submit req now) (haccepted : m'.accepted = m.accepted + 1)
      (hnew : (m'.view m.accepted).stat = .inqueue ∧
        (m'.view m.accepted).counter = (m.view m.accepted).counter)
      (hlife : ∀ t, (m.view t).SameLife (m'.view t))
      (hviews : ∀ t, slotOf t ≠ slotOf m.accepted → m'.view t = m.view t)

/-! ### All jobs at once -/

/-- A SUBMIT comes after the job stored in its slot before was marked FINISHED, and
the copies of a SUBMIT and of the pop thread fit their fields. -/
def FreshSlots (m : Master) : MasterAct → Prop
  | .submit req _ => req.CopiesFit ∧
      (maxJobQueue ≤ m.accepted → m.finished (m.accepted - maxJobQueue) = true)
  | .pop _ => m.CommandCopies
  | _ => True

instance (m : Master) : (a : MasterAct) → Decidable (FreshSlots m a)
  | .submit _ _ => inferInstanceAs (Decidable (_ ∧ (_ → _)))
  | .pop _ => inferInstanceAs (Decidable m.CommandCopies)
  | .cancel _ | .result _ _ _ | .hostStatus _ _ => isTrue trivial

/-- A job owns its slot at least until it is FINISHED, and lives in it as a job
does; the slots not used yet are as at the start. -/
structure Live (L : Ledger) : Prop where
  tallied : Tallied L
  current : ∀ j t, L.master.held = some (j, t) → t + 1 = L.master.popped
  window : ∀ t, t < L.master.accepted → (L.master.view t).finished = true ∨ L.master.Owns t
  early : ∀ t, t < L.master.accepted → (L.master.view t).phase ≠ .placed → L.master.Owns t
  fresh : ∀ t, L.master.accepted ≤ t → (L.master.view t).sent = 0 ∧
    (L.master.view t).heard = 0 ∧ (L.master.view t).finished = false
  unused : ∀ t, L.master.accepted ≤ t → t < maxJobQueue →
    (L.master.view t).stat = .unknow ∧ (L.master.view t).counter = 0
  ok : ∀ t, L.master.Owns t → (L.master.view t).Ok
  gone : ∀ t, t < L.master.accepted → ¬ L.master.Owns t →
    (L.master.view t).heard = (L.master.view t).sent

namespace Live

variable {L L' : Ledger}

/-- An outstanding dispatch is of a job that owns its slot and has reports to
come. -/
lemma of_mem (h : Live L) {d : Dispatch} (hd : d ∈ L.out) :
    L.master.Owns d.job ∧ L.master.handled d.job < L.master.assigned d.job := by
  have hpos : 0 < dispatchesOf L.out d.job := Multiset.countP_pos.mpr ⟨d, hd, rfl⟩
  have htally := h.tallied.tally d.job
  refine ⟨by_contra fun howns => ?_, by omega⟩
  have hgone : L.master.handled d.job = L.master.assigned d.job :=
    h.gone d.job (h.tallied.ids d hd).1 howns
  omega

/-- The job held by the pop thread owns its slot: it is neither in the queue nor placed, and a
job in between has its slot whatever was submitted since. -/
lemma owns_held (h : Live L) {j : PoppedJob} {t : ℕ} (hheld : L.master.held = some (j, t)) :
    L.master.Owns t := by
  have hcur := h.current j t hheld
  refine h.early t (h.tallied.labelled.held j t hheld).1 ?_
  have hpopped : ¬ L.master.popped ≤ t := by omega
  simp only [Master.view, if_neg hpopped]
  unfold Master.held at hheld
  cases hpc : L.master.pop <;> simp only [hpc, reduceCtorEq] at hheld
  all_goals
    cases hheld
    simp [PopPc.phase]

/-- The job a pop takes is the next one. -/
lemma taken (h : Live L) (hne : L.master.srv.jobHead ≠ L.master.srv.jobTail) :
    L.master.Owns L.master.popped ∧ L.master.jobOf L.master.srv.jobTail = L.master.popped := by
  have hnum := h.tallied.labelled.numbered
  have howns : L.master.Owns L.master.popped :=
    h.early _ (hnum.popped_lt hne) (by simp [Master.view])
  rw [hnum.tail]
  exact ⟨howns, (hnum.owner _ howns).1⟩

/-- A step of the pop thread that keeps the job in hand and writes no counter but that of its
slot.  What the step does to the job itself is left open; the other jobs are seen as before,
since no history of theirs is written. -/
lemma jobsStep_held (h : Live L) {numHosts now : ℤ} {j : PoppedJob} {t₀ : ℕ} {m' : Master}
    (hheld : L.master.held = some (j, t₀)) (haccepted : m'.accepted = L.master.accepted)
    (hpopped : m'.popped = L.master.popped) (hpop : ∀ t, t ≠ t₀ → m'.pop.phase t = .placed)
    (hstat : ∀ i, (m'.srv.jobq i).jobStat = (L.master.srv.jobq i).jobStat)
    (hneed : ∀ i, (m'.srv.jobq i).numReqNodes = (L.master.srv.jobq i).numReqNodes)
    (hcounter : ∀ i, i ≠ slotOf t₀ → m'.srv.jobnodes i = L.master.srv.jobnodes i)
    (hsent : ∀ t, t ≠ t₀ → m'.assigned t = L.master.assigned t)
    (hheard : ∀ t, m'.handled t = L.master.handled t)
    (hfin : ∀ t, m'.finished t = L.master.finished t)
    (hstep : JobStep numHosts (L.master.view t₀) .pop (m'.view t₀)) :
    JobsStep numHosts (.pop now) L.master m' := by
  refine .one t₀ .pop ⟨now, rfl⟩ (h.owns_held hheld) haccepted hstep (fun t ht => ?_)
    fun t ht => ?_
  · exact ⟨by simp only [Master.view, hpopped, hpop t ht, Master.phase_of_held hheld ht],
      hsent t ht, hheard t, hfin t⟩
  · have hne : t ≠ t₀ := fun heq => ht (by rw [heq])
    simp only [Master.view, hpopped, hpop t hne, Master.phase_of_held hheld hne, hstat, hneed,
      hcounter _ ht, hsent t hne, hheard, hfin]

/-- A step that moves the job in hand on, without history. -/
lemma jobsStep_moved (h : Live L) {numHosts now : ℤ} {j : PoppedJob} {t₀ : ℕ} {m' : Master}
    (hheld : L.master.held = some (j, t₀)) (haccepted : m'.accepted = L.master.accepted)
    (hpopped : m'.popped = L.master.popped) (hlog : m'.log = L.master.log)
    (hpop : ∀ t, t ≠ t₀ → m'.pop.phase t = .placed)
    (hstat : ∀ i, (m'.srv.jobq i).jobStat = (L.master.srv.jobq i).jobStat)
    (hneed : ∀ i, (m'.srv.jobq i).numReqNodes = (L.master.srv.jobq i).numReqNodes)
    (hcounter : ∀ i, i ≠ slotOf t₀ → m'.srv.jobnodes i = L.master.srv.jobnodes i)
    (hstep : JobStep numHosts (L.master.view t₀) .pop
      { L.master.view t₀ with
        phase := m'.pop.phase t₀
        counter := m'.srv.jobnodes (slotOf t₀) }) :
    JobsStep numHosts (.pop now) L.master m' := by
  have hcur := h.current j t₀ hheld
  have hview := Master.view_of_log hlog hpopped hstat hneed t₀
  rw [if_neg (by omega)] at hview
  refine h.jobsStep_held hheld haccepted hpopped hpop hstat hneed hcounter (fun t _ => ?_)
    (fun t => ?_) (fun t => ?_) (hview ▸ hstep)
  · rw [Master.assigned, Master.assigned, hlog]
  · rw [Master.handled, Master.handled, hlog]
  · rw [Master.finished, Master.finished, hlog]

/-- A job is taken from the queue, and is then waited for or skipped: in both cases its slot is
marked RUNNING and the phase of no other job changes. -/
lemma jobsStep_taken (h : Live L) {numHosts now : ℤ} {j : PoppedJob} {srv : Server}
    {m' : Master} (hidle : L.master.pop = .idle)
    (htake : jobQueueTake L.master.srv = some (some j, srv))
    (haccepted : m'.accepted = L.master.accepted) (hpopped : m'.popped = L.master.popped + 1)
    (hpop : ∀ t, t ≠ L.master.popped → m'.pop.phase t = .placed)
    (hlog : m'.log = L.master.log)
    (hstat : ∀ i, (m'.srv.jobq i).jobStat = (srv.jobq i).jobStat)
    (hneed : ∀ i, (m'.srv.jobq i).numReqNodes = (srv.jobq i).numReqNodes)
    (hcounter : m'.srv.jobnodes = srv.jobnodes)
    (hstep : ∀ v, v = { L.master.view L.master.popped with
        phase := m'.pop.phase L.master.popped, stat := .running } →
      JobStep numHosts (L.master.view L.master.popped) .pop v) :
    JobsStep numHosts (.pop now) L.master m' := by
  obtain ⟨hne, _, _, _, rfl⟩ := jobQueueTake_some htake
  have htail := h.tallied.labelled.numbered.tail
  -- the number of the job is the count of those popped before, so only its phase moves
  have hphase : ∀ t, t ≠ L.master.popped →
      (m'.view t).phase = (L.master.view t).phase := by
    intro t ht
    have hiff : L.master.popped + 1 ≤ t ↔ L.master.popped ≤ t := by omega
    have hplaced : L.master.pop.phase t = .placed := by rw [hidle, PopPc.phase]
    simp only [Master.view, hpopped, hpop t ht, hplaced, hiff]
  have hlife : ∀ t, m'.assigned t = L.master.assigned t ∧ m'.handled t = L.master.handled t ∧
      m'.finished t = L.master.finished t := by
    intro t
    simp only [Master.assigned, Master.handled, Master.finished, hlog, and_self]
  refine .one L.master.popped .pop ⟨now, rfl⟩ (h.taken hne).1 haccepted (hstep _ ?_)
    (fun t ht => ⟨hphase t ht, (hlife t).1, (hlife t).2.1, (hlife t).2.2⟩) fun t ht => ?_
  · obtain ⟨hsent, hheard, hfin⟩ := hlife L.master.popped
    ext
    · simp [Master.view, hpopped]
    · simp [Master.view, hstat, htail, BatchJobInfo.start]
    · simp [Master.view, hneed]
    · simp [Master.view, hcounter]
    · exact hsent
    · exact hheard
    · exact hfin
  · have hslot : slotOf t ≠ L.master.srv.jobTail := htail ▸ ht
    obtain ⟨hsent, hheard, hfin⟩ := hlife t
    ext
    · exact hphase t fun heq => ht (by rw [heq])
    · simp [Master.view, hstat, hslot]
    · simp [Master.view, hneed]
    · simp [Master.view, hcounter]
    · exact hsent
    · exact hheard
    · exact hfin

/-- The job that is being dispatched. -/
lemma dispatching (h : Live L) {j : PoppedJob} {t₀ : ℕ} {i k : ℤ}
    (hpc : L.master.pop = .dispatch j t₀ i k) :
    L.master.held = some (j, t₀) ∧ (L.master.view t₀).phase = .dispatching i k ∧
      j.jobId = slotOf t₀ ∧ j.numReqNodes = (L.master.view t₀).need := by
  have hheld := Master.held_of_dispatch hpc
  have hcur := h.current j t₀ hheld
  obtain ⟨_, _, hid, hneed⟩ := h.tallied.labelled.held j t₀ hheld
  refine ⟨hheld, ?_, hid, hneed (h.owns_held hheld)⟩
  simp only [Master.view, hpc, PopPc.phase, if_true]
  exact if_neg (by omega)

/-- **A step of the pop thread** is a step of the job it takes or holds, or of none: starting,
finding the queue empty and looking at a node in the waiting loop change no job, and every other
step is named after the `JobStep` that it is. -/
lemma jobsStep_pop (h : Live L) {numHosts now : ℤ} {m' : Master} {ps : List Packet}
    (hpop : PopStep numHosts now L.master m' ps) :
    JobsStep numHosts (.pop now) L.master m' := by
  cases hpop with
  | init hpc =>
      exact .same rfl (Master.view_of_phase rfl rfl fun _ => by rw [hpc]; rfl)
  | empty hpc hempty => exact .same rfl fun _ => rfl
  -- the two ways to leave the queue
  | @take j srv hpc htake hfits =>
      obtain ⟨hne, _, _, hneed, _⟩ := jobQueueTake_some htake
      have hjob := (h.taken hne).2
      have htail := h.tallied.labelled.numbered.tail
      refine h.jobsStep_taken hpc htake rfl rfl (fun t ht => ?_) rfl (fun _ => rfl)
        (fun _ => rfl) rfl ?_
      · simp [PopPc.phase, hjob, Ne.symm ht]
      · rintro v rfl
        simp only [PopPc.phase, hjob, if_true]
        exact .take (by simp [Master.view]) (by rw [hneed, htail] at hfits; exact hfits)
  | @skip j srv hpc htake hlarge =>
      obtain ⟨_, _, _, hneed, _⟩ := jobQueueTake_some htake
      have htail := h.tallied.labelled.numbered.tail
      refine h.jobsStep_taken hpc htake rfl rfl (fun t ht => rfl) rfl (fun _ => by simp)
        (fun _ => by simp) (by simp) ?_
      rintro v rfl
      exact .skip (by simp [Master.view]) (by rw [hneed, htail] at hlarge; exact hlarge)
  -- the waiting loop: the count is private, only the end of the loop is seen
  | @scan j t₀ count i hpc hi =>
      exact .same rfl (Master.view_of_phase rfl rfl fun _ => by rw [hpc]; rfl)
  | again hpc hi hcount =>
      exact .same rfl (Master.view_of_phase rfl rfl fun _ => by rw [hpc]; rfl)
  | @enough j t₀ count i hpc hi hcount =>
      have hheld := Master.held_of_wait hpc
      have hcur := h.current j t₀ hheld
      have hphase : (L.master.view t₀).phase = .waiting := by
        simp [Master.view, hpc, PopPc.phase, ← hcur]
      refine h.jobsStep_moved hheld rfl rfl rfl (fun t ht => if_neg (Ne.symm ht))
        (fun _ => by simp) (fun _ => by simp) (fun _ _ => rfl) ?_
      rw [PopPc.phase, if_pos rfl]
      exact .enough hphase
  -- the dispatch loops: a submit message is the only step that writes history
  | @assign j t₀ i k hpc hi hk hin hfree =>
      obtain ⟨hheld, hphase, -, hneed⟩ := h.dispatching hpc
      have hcur := h.current j t₀ hheld
      refine h.jobsStep_held hheld rfl rfl (fun t ht => ?_) (fun _ => by simp) (fun _ => by simp)
        (fun _ _ => rfl) (fun t ht => ?_) (fun t => ?_) (fun t => ?_) ?_
      · exact if_neg (Ne.symm ht)
      · simp [Master.assigned, Event.isAssigned, Ne.symm ht]
      · simp [Master.handled, Event.isHandled]
      · simp [Master.finished]
      · convert JobStep.assign hphase (hi.trans_eq hneed) hk using 1
        ext
        all_goals simp [Master.view, PopPc.phase, ← hcur, Master.assigned, Master.handled,
          Master.finished, Event.isAssigned, Event.isHandled]
  | @next j t₀ i k hpc hi hk hbusy =>
      obtain ⟨hheld, hphase, -, hneed⟩ := h.dispatching hpc
      refine h.jobsStep_moved hheld rfl rfl rfl (fun t ht => if_neg (Ne.symm ht)) (fun _ => rfl)
        (fun _ => rfl) (fun _ _ => rfl) ?_
      rw [PopPc.phase, if_pos rfl]
      exact .next hphase (hi.trans_eq hneed) hk
  | @giveUp j t₀ i k hpc hi hk =>
      obtain ⟨hheld, hphase, -, hneed⟩ := h.dispatching hpc
      refine h.jobsStep_moved hheld rfl rfl rfl (fun t ht => if_neg (Ne.symm ht)) (fun _ => rfl)
        (fun _ => rfl) (fun _ _ => rfl) ?_
      rw [PopPc.phase, if_pos rfl]
      exact .giveUp hphase (hi.trans_eq hneed) hk
  | @finish j t₀ i k hpc hi hin =>
      obtain ⟨hheld, hphase, hid, hneed⟩ := h.dispatching hpc
      refine h.jobsStep_moved hheld rfl rfl rfl (fun _ _ => rfl) (fun _ => rfl) (fun _ => rfl)
        (fun i hi => Function.update_of_ne (hid ▸ hi) ..) ?_
      -- what is written to the counter is the node count of the job itself
      have hcounter : (L.master.srv.setJobnodes j.jobId j.numReqNodes).jobnodes (slotOf t₀) =
          (L.master.view t₀).need := by
        rw [hid, ← hneed]
        exact Function.update_self ..
      rw [hcounter]
      exact .place hphase (hneed.symm.trans_lt hi)

/-- A FINISHED report of an outstanding dispatch is a step of the job that was dispatched: the
job still owns its slot, so the id in the report leads to its own record. -/
lemma jobsStep_report (h : Live L) {numHosts now : ℤ} {msg : Msg} {job : ℕ} {m' : Master}
    (hmem : msg.reported job ∈ L.out)
    (hm : MasterStep numHosts L.master (.result msg job now) m' [])
    (hm2 : msg.m2 = JobStat.finished.code) :
    JobsStep numHosts (.result msg job now) L.master m' := by
  obtain ⟨howns, hsent⟩ := h.of_mem hmem
  have hid : msg.m1 = slotOf job := (h.tallied.ids _ hmem).2
  have hjobOf : L.master.jobOf (slotOf job) = job :=
    (h.tallied.labelled.numbered.owner job howns).1
  cases hm with
  | other _ _ _ hm2' => exact absurd hm2 hm2'
  | report _ _ _ _ hsrc hjob hmore =>
      rw [hid] at hmore ⊢
      refine .one job .report ⟨msg, now, rfl⟩ howns rfl ?_ (fun t ht => ?_) fun t ht => ?_
      · rw [Master.view_report, if_pos rfl, if_pos rfl]
        exact .report hsent hmore
      · rw [Master.view_report, if_neg (Ne.symm ht)]
        exact ⟨rfl, rfl, rfl, rfl⟩
      · have hne : job ≠ t := fun heq => ht (by rw [heq])
        rw [Master.view_report, if_neg ht, if_neg hne]
        rfl
  | lastReport _ _ _ _ hsrc hjob hlast =>
      rw [hid] at hlast ⊢
      rw [hjobOf]
      refine .one job .report ⟨msg, now, rfl⟩ howns rfl ?_ (fun t ht => ?_) fun t ht => ?_
      · rw [Master.view_lastReport, if_pos rfl, if_pos rfl, if_pos rfl,
          decide_eq_true (rfl : job = job), Bool.true_or]
        exact .lastReport hsent hlast
      · rw [Master.view_lastReport, if_neg (Ne.symm ht)]
        exact ⟨rfl, rfl, rfl, by simp only [decide_eq_false ht, Bool.false_or]⟩
      · have hne : t ≠ job := fun heq => ht (by rw [heq])
        rw [Master.view_lastReport, if_neg ht, if_neg ht, if_neg hne.symm]
        simp only [decide_eq_false hne, Bool.false_or]
        rfl

/-- **One step of the ledger** is a step of one job, of none, or a SUBMIT. -/
lemma jobsStep (h : Live L) {numHosts : ℤ} {a : MasterAct}
    (hstep : L.step numHosts a = some L') : JobsStep numHosts a L.master L'.master := by
  obtain ⟨ps, hm, hans, -⟩ := ledgerStep_spec hstep
  generalize L'.master = m' at hm ⊢
  cases a with
  | submit req now =>
      have hhead := h.tallied.labelled.numbered.head
      cases hm with
      | submit _ _ pcomm username =>
          refine .submit ⟨req, now, rfl⟩ rfl ?_ (fun t => ⟨rfl, rfl, rfl, rfl⟩) fun t ht => ?_
          · simp [Master.view, hhead, SubmitRequest.store]
          · simp [Master.view, hhead, ht, Master.assigned, Master.handled, Master.finished]
  | cancel jobId =>
      cases hm with
      | cancel _ hhosts =>
          refine .same rfl fun t => ?_
          simp [Master.view, Master.assigned, Master.handled, Master.finished,
            List.countP_map, Function.comp_def, Event.isAssigned, Event.isHandled]
  | pop now =>
      cases hm with
      | pop _ hpop => exact h.jobsStep_pop hpop
  | result msg job now =>
      by_cases hm2 : msg.m2 = JobStat.finished.code
      · have hnil : ps = [] := by cases hm <;> rfl
        rw [hnil] at hm
        exact h.jobsStep_report (hans hm2) hm hm2
      · cases hm with
        | other _ _ _ _ => exact .same rfl fun _ => rfl
        | report _ _ _ hm2' => exact absurd hm2' hm2
        | lastReport _ _ _ hm2' => exact absurd hm2' hm2
  | hostStatus msg job =>
      cases hm with
      | hostStatus _ _ =>
          refine .same rfl fun t => ?_
          simp [Master.view, Master.assigned, Master.handled, Master.finished,
            Event.isAssigned, Event.isHandled]

/-- The job in hand is the last one taken. -/
lemma current_step (h : Live L) {numHosts : ℤ} {a : MasterAct}
    (hstep : L.step numHosts a = some L') {j : PoppedJob} {t : ℕ}
    (hheld : L'.master.held = some (j, t)) : t + 1 = L'.master.popped := by
  obtain ⟨ps, hm, -, -⟩ := ledgerStep_spec hstep
  have hcur := h.current
  generalize L'.master = m' at hm hheld
  cases hm with
  | submit req now pcomm username => exact hcur j t hheld
  | cancel jobId hhosts => exact hcur j t hheld
  | pop now hpop =>
      rcases hpop.held_cases with hnone | ⟨hsame, hpopped⟩ | ⟨j', srv, htake, -, htaken, hpopped⟩
      · rw [hnone] at hheld
        cases hheld
      · rw [hpopped]
        exact hcur j t (hsame ▸ hheld)
      · obtain ⟨hne, -⟩ := jobQueueTake_some htake
        rw [htaken] at hheld
        cases hheld
        rw [hpopped, (h.taken hne).2]
  | other msg job now hm2 => exact hcur j t hheld
  | report msg job now hm2 hsrc hjob hmore => exact hcur j t hheld
  | lastReport msg job now hm2 hsrc hjob hlast => exact hcur j t hheld
  | hostStatus msg job => exact hcur j t hheld

/-- The counter of the slot that the next SUBMIT takes is zero: the slot was never used, or the
job in it is FINISHED, and then its reports have counted it down. -/
lemma counter_next (h : Live L) {req : SubmitRequest} {now : ℤ}
    (hg : FreshSlots L.master (.submit req now)) :
    (L.master.view L.master.accepted).counter = 0 := by
  by_cases hfirst : L.master.accepted < maxJobQueue
  · exact (h.unused _ le_rfl hfirst).2
  · have hle := le_of_not_gt hfirst
    have howns : L.master.Owns (L.master.accepted - maxJobQueue) :=
      ⟨by have := maxJobQueue_pos; omega, by omega⟩
    have hslot : slotOf (L.master.accepted - maxJobQueue) = slotOf L.master.accepted := by
      rw [slotOf_eq_iff]
      exact (Nat.mod_eq_sub_mod hle).symm
    have hzero := ((h.ok _ howns).of_finished (hg.2 hle)).2.2.1
    simp only [Master.view, hslot] at hzero ⊢
    exact hzero

/-! A step of the master by its kind; the first two fields hold after every step. -/

/-- A step that changes no job. -/
lemma step_same (h : Live L) (htally : Tallied L')
    (hcur : ∀ j t, L'.master.held = some (j, t) → t + 1 = L'.master.popped)
    (haccepted : L'.master.accepted = L.master.accepted)
    (hviews : ∀ t, L'.master.view t = L.master.view t) : Live L' := by
  have howns := Master.owns_congr haccepted
  constructor
  · exact htally
  · exact hcur
  all_goals simp only [haccepted, hviews, howns]
  · exact h.window
  · exact h.early
  · exact h.fresh
  · exact h.unused
  · exact h.ok
  · exact h.gone

/-- A step of one job that owns its slot.  The job is in order by the step lemma of its life,
every other job that has a slot is seen as before, and of the rest only the life matters. -/
lemma step_one (h : Live L) (htally : Tallied L')
    (hcur : ∀ j t, L'.master.held = some (j, t) → t + 1 = L'.master.popped)
    {numHosts : ℤ} {t₀ : ℕ} {act : JobAct} (howns₀ : L.master.Owns t₀)
    (haccepted : L'.master.accepted = L.master.accepted)
    (hjob : JobStep numHosts (L.master.view t₀) act (L'.master.view t₀))
    (hlife : ∀ t, t ≠ t₀ → (L.master.view t).SameLife (L'.master.view t))
    (hviews : ∀ t, slotOf t ≠ slotOf t₀ → L'.master.view t = L.master.view t) : Live L' := by
  have howns := Master.owns_congr haccepted
  constructor
  · exact htally
  · exact hcur
  all_goals simp only [haccepted, howns]
  -- the fields in their order: in each the job itself apart from the others
  · intro t ht
    by_cases heq : t = t₀
    · exact Or.inr (heq ▸ howns₀)
    · rw [(hlife t heq).finished]
      exact h.window t ht
  · intro t ht hphase
    by_cases heq : t = t₀
    · exact heq ▸ howns₀
    · rw [(hlife t heq).phase] at hphase
      exact h.early t ht hphase
  · intro t ht
    have hne : t ≠ t₀ := ne_of_gt (howns₀.1.trans_le ht)
    rw [(hlife t hne).sent, (hlife t hne).heard, (hlife t hne).finished]
    exact h.fresh t ht
  · intro t ht hlt
    rw [hviews t (slotOf_ne_of_lt (howns₀.1.trans_le ht) hlt)]
    exact h.unused t ht hlt
  · intro t ht
    by_cases heq : t = t₀
    · rw [heq]
      exact (h.ok t₀ howns₀).step hjob
    · rw [hviews t fun hslot => heq (ht.eq_of_slotOf_eq howns₀ hslot)]
      exact h.ok t ht
  · intro t ht hnot
    have hne : t ≠ t₀ := fun heq => hnot (heq ▸ howns₀)
    rw [(hlife t hne).sent, (hlife t hne).heard]
    exact h.gone t ht hnot

/-- A SUBMIT that takes over the slot of a job marked FINISHED.  The guard is used for that job
alone: it is the only one that loses its slot, and it has nothing outstanding any more. -/
lemma step_submit (h : Live L) (htally : Tallied L')
    (hcur : ∀ j t, L'.master.held = some (j, t) → t + 1 = L'.master.popped)
    {req : SubmitRequest} {now : ℤ} (hg : FreshSlots L.master (.submit req now))
    (haccepted : L'.master.accepted = L.master.accepted + 1)
    (hnew : (L'.master.view L.master.accepted).stat = .inqueue ∧
      (L'.master.view L.master.accepted).counter = (L.master.view L.master.accepted).counter)
    (hlife : ∀ t, (L.master.view t).SameLife (L'.master.view t))
    (hviews : ∀ t, slotOf t ≠ slotOf L.master.accepted →
      L'.master.view t = L.master.view t) : Live L' := by
  have hother : ∀ t, ¬ L'.master.Owns t → t ≠ L.master.accepted :=
    fun t hnot heq => hnot (heq ▸ Master.owns_accepted haccepted)
  -- the job that loses its slot is the one the guard speaks of
  have hold : ∀ t, L.master.Owns t → ¬ L'.master.Owns t → (L.master.view t).finished = true := by
    intro t ht hnot
    have heq := ht.of_lost haccepted hnot
    have hfin := hg.2 (by omega)
    rwa [← heq, Nat.add_sub_cancel] at hfin
  -- the job that is stored
  have hview : L'.master.view L.master.accepted =
      .submitted (L'.master.view L.master.accepted).need := by
    obtain ⟨hsent, hheard, hfin⟩ := h.fresh L.master.accepted le_rfl
    have hpopped := h.tallied.labelled.numbered.popped_le
    ext
    · rw [(hlife _).phase]
      simp [Master.view, hpopped, JobView.submitted]
    · exact hnew.1
    · rfl
    · exact hnew.2.trans (h.counter_next hg)
    · exact (hlife _).sent.trans hsent
    · exact (hlife _).heard.trans hheard
    · exact (hlife _).finished.trans hfin
  constructor
  · exact htally
  · exact hcur
  -- `window`: a job without its slot lost it now or before
  · intro t ht
    rw [haccepted] at ht
    rw [(hlife t).finished]
    by_cases hown : L'.master.Owns t
    · exact Or.inr hown
    · have hne := hother t hown
      exact Or.inl ((h.window t (by omega)).elim id fun hown' => hold t hown' hown)
  · intro t ht hphase
    rw [haccepted] at ht
    rw [(hlife t).phase] at hphase
    -- a job that is not placed cannot have been FINISHED
    by_contra hown
    have hne := hother t hown
    have hown' := h.early t (by omega) hphase
    exact hphase ((h.ok t hown').of_finished (hold t hown' hown)).1
  · intro t ht
    rw [haccepted] at ht
    rw [(hlife t).sent, (hlife t).heard, (hlife t).finished]
    exact h.fresh t (by omega)
  · intro t ht hlt
    rw [haccepted] at ht
    rw [hviews t (slotOf_ne_of_lt (by omega) hlt)]
    exact h.unused t (by omega) hlt
  -- `ok`: the new job by its start values, the others in slots of their own
  · intro t ht
    by_cases heq : t = L.master.accepted
    · rw [heq, hview]
      exact JobView.ok_submitted _
    · obtain ⟨hown, hslot⟩ := ht.of_accept haccepted heq
      rw [hviews t hslot]
      exact h.ok t hown
  · intro t ht hnot
    rw [haccepted] at ht
    have hne := hother t hnot
    rw [(hlife t).sent, (hlife t).heard]
    by_cases hown : L.master.Owns t
    · exact ((h.ok t hown).of_finished (hold t hown hnot)).2.2.2
    · exact h.gone t (by omega) hown

/-- **One guarded step of the ledger** keeps all jobs in order. -/
lemma step (h : Live L) {numHosts : ℤ} {a : MasterAct} (hg : FreshSlots L.master a)
    (hstep : L.step numHosts a = some L') : Live L' := by
  have htally := h.tallied.step hstep
  have hcur : ∀ j t, L'.master.held = some (j, t) → t + 1 = L'.master.popped :=
    fun j t => h.current_step hstep
  cases h.jobsStep hstep with
  | same haccepted hviews => exact h.step_same htally hcur haccepted hviews
  | one t₀ act hact howns₀ haccepted hjob hlife hviews =>
      exact h.step_one htally hcur howns₀ haccepted hjob hlife hviews
  | submit hact haccepted hnew hlife hviews =>
      obtain ⟨req, now, rfl⟩ := hact
      exact h.step_submit htally hcur hg haccepted hnew hlife hviews

end Live

/-! ### Live ids -/

lemma live_init (ips : ℤ → Bytes) : Live ⟨.init ips, 0⟩ where
  tallied := tallied_init ips
  current := nofun
  window t ht := absurd ht (Nat.not_lt_zero t)
  early t ht := absurd ht (Nat.not_lt_zero t)
  fresh _ _ := ⟨rfl, rfl, rfl⟩
  unused _ _ _ := ⟨rfl, rfl⟩
  ok t ht := absurd ht.1 (Nat.not_lt_zero t)
  gone t ht := absurd ht (Nat.not_lt_zero t)

/-- All jobs are in order in every state of the guarded runs of the cluster. -/
lemma live_of_reach {numHosts : ℤ} {ips : ℤ → Bytes} {G : Master → MasterAct → Prop}
    (hG : ∀ m a, G m a → FreshSlots m a) {s : Sys}
    (h : (clusterMachine numHosts lossless ips).Reach (OnMaster numHosts G) s) :
    Live (s.ledger numHosts) :=
  (ledger_of_cluster h).invariant (live_init ips) fun _ _ _ _ hL hg hs => hL.step (hG _ _ hg) hs

/-- What it means, at a step of the cluster, that live ids are unique: a SUBMIT
takes a slot that is neither INQUEUE nor RUNNING, a report of a job changes the
counter and the status of no other job, and no two unfinished jobs share a slot. -/
structure UniqueAt (numHosts : ℤ) (s : Sys) (l : SysAct) (s' : Sys) : Prop where
  submit : ∀ req now, l = .submit req now →
    (s.master.srv.jobq s.master.srv.jobHead).jobStat ≠ .inqueue ∧
    (s.master.srv.jobq s.master.srv.jobHead).jobStat ≠ .running
  report : ∀ msg job now, l.masterAct numHosts = some (.result msg job now) →
    ∀ t, s.master.Owns t → t ≠ job →
      s'.master.srv.jobnodes (slotOf t) = s.master.srv.jobnodes (slotOf t) ∧
      (s'.master.srv.jobq (slotOf t)).jobStat = (s.master.srv.jobq (slotOf t)).jobStat
  unique : ∀ t u, t < s.master.accepted → u < s.master.accepted →
    s.master.finished t = false → s.master.finished u = false → slotOf t = slotOf u → t = u

/-- Live ids are unique along all runs whose steps of the master meet a guard. -/
def LiveIdsUnique (numHosts : ℤ) (ips : ℤ → Bytes) (G : Master → MasterAct → Prop) : Prop :=
  ∀ s l s', (clusterMachine numHosts lossless ips).Reach (OnMaster numHosts G) s →
    OnMaster numHosts G s l →
    (clusterMachine numHosts lossless ips).step l s = some s' → UniqueAt numHosts s l s'

/-- The slot a guarded SUBMIT takes. -/
lemma Live.stat_next {L : Ledger} (h : Live L) {req : SubmitRequest} {now : ℤ}
    (hg : FreshSlots L.master (.submit req now)) :
    (L.master.srv.jobq L.master.srv.jobHead).jobStat ≠ .inqueue ∧
    (L.master.srv.jobq L.master.srv.jobHead).jobStat ≠ .running := by
  rw [h.tallied.labelled.numbered.head]
  by_cases hfirst : L.master.accepted < maxJobQueue
  · have hstat : (L.master.srv.jobq (slotOf L.master.accepted)).jobStat = .unknow :=
      (h.unused _ le_rfl hfirst).1
    rw [hstat]
    exact ⟨nofun, nofun⟩
  · have hle := le_of_not_gt hfirst
    have howns : L.master.Owns (L.master.accepted - maxJobQueue) :=
      ⟨by have := maxJobQueue_pos; omega, by omega⟩
    have hslot : slotOf L.master.accepted = slotOf (L.master.accepted - maxJobQueue) := by
      rw [slotOf_eq_iff]
      exact Nat.mod_eq_sub_mod hle
    have hstat : (L.master.srv.jobq (slotOf (L.master.accepted - maxJobQueue))).jobStat
        = .finished := ((h.ok _ howns).of_finished (hg.2 hle)).2.1
    rw [hslot, hstat]
    exact ⟨nofun, nofun⟩

/-- **Live job ids are unique** as long as every SUBMIT comes after the job
stored in its slot before was marked FINISHED, and no copy leaves its field. -/
theorem live_ids_unique (numHosts : ℤ) (ips : ℤ → Bytes) :
    LiveIdsUnique numHosts ips FreshSlots := by
  intro s l s' h hg hs
  have hlive := live_of_reach (fun _ _ => id) h
  refine ⟨?_, ?_, ?_⟩
  · rintro req now rfl
    exact hlive.stat_next (hg _ rfl)
  · intro msg job now ha t ht hne
    rcases ledger_sysStep (sysStep_spec hs) with heq | ⟨a, ha', hstep⟩
    · have hmaster : s'.master = s.master := congrArg Ledger.master heq
      rw [hmaster]
      exact ⟨rfl, rfl⟩
    · obtain rfl : a = .result msg job now := Option.some.inj (ha'.symm.trans ha)
      have hview : s'.master.view t = s.master.view t := by
        cases hlive.jobsStep hstep with
        | same haccepted hviews => exact hviews t
        | one t₀ act hact howns haccepted hjob hlife hviews =>
            have heq : t₀ = job := by
              cases act with
              | pop => obtain ⟨_, hcontra⟩ := hact; cases hcontra
              | report => obtain ⟨_, _, heq⟩ := hact; cases heq; rfl
            refine hviews t fun hslot => hne ?_
            exact (ht.eq_of_slotOf_eq howns hslot).trans heq
        | submit hact => obtain ⟨_, _, hcontra⟩ := hact; cases hcontra
      exact ⟨congrArg JobView.counter hview, congrArg JobView.stat hview⟩
  · intro t u ht hu hfint hfinu hslot
    have hown : ∀ v, v < s.master.accepted → s.master.finished v = false → s.master.Owns v :=
      fun v hv hfin => (hlive.window v hv).resolve_left fun hcontra =>
        Bool.false_ne_true (hfin.symm.trans hcontra)
    exact (hown t ht hfint).eq_of_slotOf_eq (hown u hu hfinu) hslot

/-- A SUBMIT finds room in the queue, and the copies of a SUBMIT and of the pop
thread fit their fields. -/
def QueueHasRoom (m : Master) : MasterAct → Prop
  | .submit req _ => req.CopiesFit ∧ ¬ queueFull m.srv
  | .pop _ => m.CommandCopies
  | _ => True

instance (m : Master) : (a : MasterAct) → Decidable (QueueHasRoom m a)
  | .submit _ _ => inferInstanceAs (Decidable (_ ∧ _))
  | .pop _ => inferInstanceAs (Decidable m.CommandCopies)
  | .cancel _ | .result _ _ _ | .hostStatus _ _ => isTrue trivial

/-- A SUBMIT of the command `a` for one node. -/
def submitOne : SysAct := .submit ⟨1, [97], 2, 1, [117], 2⟩ 0

/-- Job 0 runs on the only node, 31 more jobs are submitted, and the next of them
is taken from the queue. -/
def wrapAround : List SysAct :=
  assignOne ++ [.pop 0, .pop 0] ++ List.replicate 31 submitOne ++ [.pop 0]

/-- **A SUBMIT takes the slot of a running job**, and with it its id and its
counter, though the queue is not full. -/
theorem submit_over_running_job : ¬ LiveIdsUnique 1 (fun _ => []) QueueHasRoom := by
  intro hall
  have hrun : (((clusterMachine 1 lossless fun _ => []).restrict fun s l =>
      (l.masterAct 1).all fun a => decide (QueueHasRoom s.master a)).run wrapAround
        (.init fun _ => [])).any (fun s =>
          decide (¬ queueFull s.master.srv) &&
          decide ((s.master.srv.jobq s.master.srv.jobHead).jobStat = .running) &&
          ((clusterMachine 1 lossless fun _ => []).step submitOne s).isSome) = true := by
    decide +kernel
  obtain ⟨s, hs, hp⟩ := exists_reach_of_tested QueueHasRoom hrun
  simp only [Bool.and_eq_true, decide_eq_true_eq, Option.isSome_iff_exists] at hp
  obtain ⟨⟨hroom, hstat⟩, s', hstep⟩ := hp
  have hguard : OnMaster 1 QueueHasRoom s submitOne := by
    intro a ha
    obtain rfl := Option.some.inj ha
    exact ⟨by decide, hroom⟩
  exact ((hall s submitOne s' hs hguard hstep).submit _ _ rfl).2 hstat

end Epbs
