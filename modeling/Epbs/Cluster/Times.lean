/-
The times in the job table.

* `Master.Started`: the pop thread is through with the waiting loop of a job;
* `Chronicle`: the times of the jobs that have their slots, up to the last reading of the clock;
* `Chronicle.submit`, `Chronicle.next`: what a step with a later reading keeps, a SUBMIT and any
  other;
* `Chronicle.step`: every step of the master is one of them;
* `times_in_order`: a job is submitted, started and finished in this order, and no job is
  submitted or started before an earlier one, if the clock does not go back.
-/
import Epbs.Cluster.Completion
import Epbs.Cluster.Delay

namespace Epbs

/-! ### The clock -/

/-- What `time` returns in a step of the master. -/
def MasterAct.now : MasterAct → Option ℤ
  | .submit _ now | .pop now | .result _ _ now => some now
  | .cancel _ | .hostStatus _ _ => none

/-- What `time` returns in a step of the cluster. -/
def SysAct.now (numHosts : ℤ) (l : SysAct) : Option ℤ :=
  (l.masterAct numHosts).bind MasterAct.now

/-- The record in the slot of a job. -/
def Master.record (m : Master) (t : ℕ) : BatchJobInfo := m.srv.jobq (slotOf t)

/-- The job was taken from the queue, and the pop thread is not in its waiting loop. -/
def Master.Started (m : Master) (t : ℕ) : Prop := t < m.popped ∧ m.pop.phase t ≠ .waiting

instance (m : Master) (t : ℕ) : Decidable (m.Started t) :=
  inferInstanceAs (Decidable (_ ∧ _))

/-- A job that is marked FINISHED was started. -/
lemma Live.started_of_finished {L : Ledger} (h : Live L) {t : ℕ} (ht : L.master.Owns t)
    (hstat : (L.master.record t).jobStat = .finished) : L.master.Started t := by
  have hphase := (h.ok t ht).2
  have hview : (L.master.view t).stat = .finished := hstat
  rw [hview] at hphase
  cases hp : (L.master.view t).phase with
  | queued | waiting | dispatching =>
      rw [hp] at hphase
      cases hphase.1
  | placed =>
      rw [show (L.master.view t).phase
        = if L.master.popped ≤ t then .queued else L.master.pop.phase t from rfl] at hp
      split_ifs at hp with hle
      exact ⟨not_le.mp hle, fun hwait => by rw [hp] at hwait; cases hwait⟩

/-- A job that the pop thread does not hold is not in the waiting loop. -/
lemma JobPhase.placed_ne_waiting : JobPhase.placed ≠ .waiting := by decide

/-- A job in the dispatch loops is not in the waiting loop. -/
lemma PopPc.phase_dispatch_ne (j : PoppedJob) (job : ℕ) (i k : ℤ) (t : ℕ) :
    (PopPc.dispatch j job i k).phase t ≠ .waiting := by
  rw [PopPc.phase]
  split_ifs with heq
  · exact fun hwait => by cases hwait
  · exact JobPhase.placed_ne_waiting

/-- The jobs before one that was started were started. -/
lemma Live.started_of_lt {L : Ledger} (h : Live L) {t u : ℕ} (hlt : t < u)
    (hs : L.master.Started u) : L.master.Started t := by
  refine ⟨hlt.trans hs.1, fun hwait => ?_⟩
  cases hpc : L.master.pop with
  | start | idle =>
      rw [hpc] at hwait
      cases hwait
  | wait j job count i =>
      -- the job in the waiting loop is the last one that was taken
      rw [hpc, PopPc.phase] at hwait
      split_ifs at hwait with hjob
      have hcur := h.current j job (Master.held_of_wait hpc)
      have hpopped := hs.1
      omega
  | dispatch j job i k =>
      rw [hpc] at hwait
      exact PopPc.phase_dispatch_ne _ _ _ _ t hwait

/-- The times in a record. -/
def BatchJobInfo.times (job : BatchJobInfo) : ℤ × ℤ × ℤ := (job.time1, job.time2, job.time3)

lemma stamp_time2 (s : Server) (slot now i : ℤ) :
    ((s.stamp slot now).jobq i).time2 = if i = slot then now else (s.jobq i).time2 := by
  rw [Server.stamp, Server.writeSlot_jobq, Function.update_apply]
  split_ifs <;> rfl

lemma finish_time3 (s : Server) (slot now i : ℤ) :
    ((s.finish slot now).jobq i).time3 = if i = slot then now else (s.jobq i).time3 := by
  rw [Server.finish, Server.writeSlot_jobq, Function.update_apply]
  split_ifs <;> rfl

/-! ### The invariant -/

/-- The jobs that have their slots were submitted, started and finished in this order, no later
than `c`, and submitted and started in the order of their numbers. -/
structure Chronicle (c : ℤ) (m : Master) : Prop where
  submitted : ∀ t, m.Owns t → (m.record t).time1 ≤ c
  started : ∀ t, m.Owns t → m.Started t →
    (m.record t).time1 ≤ (m.record t).time2 ∧ (m.record t).time2 ≤ c
  finished : ∀ t, m.Owns t → (m.record t).jobStat = .finished →
    (m.record t).time2 ≤ (m.record t).time3 ∧ (m.record t).time3 ≤ c
  submits : ∀ t u, m.Owns t → m.Owns u → t < u → (m.record t).time1 ≤ (m.record u).time1
  starts : ∀ t u, m.Owns t → m.Owns u → t < u → m.Started t → m.Started u →
    (m.record t).time2 ≤ (m.record u).time2

namespace Chronicle

variable {c c' : ℤ} {m m' : Master}

lemma init (c : ℤ) (ips : ℤ → Bytes) : Chronicle c (.init ips) where
  submitted t ht := absurd ht.1 (Nat.not_lt_zero t)
  started t ht := absurd ht.1 (Nat.not_lt_zero t)
  finished t ht := absurd ht.1 (Nat.not_lt_zero t)
  submits t _ ht := absurd ht.1 (Nat.not_lt_zero t)
  starts t _ ht := absurd ht.1 (Nat.not_lt_zero t)

/-- **A SUBMIT** stamps the next job, which is not started. It is the latest job and its reading
is the latest one, so that it comes after all others in both orders. -/
lemma submit (h : Chronicle c m) (hnum : Numbered m) (hc : c ≤ c') {job : BatchJobInfo}
    (htime : job.time1 = c') (hstat : job.jobStat = .inqueue)
    (haccepted : m'.accepted = m.accepted + 1) (hpopped : m'.popped = m.popped)
    (hpop : m'.pop = m.pop)
    (hjobq : m'.srv.jobq = Function.update m.srv.jobq m.srv.jobHead job) : Chronicle c' m' := by
  -- the slot written is the one of the new job, so the others keep their records
  have hnew : m'.record m.accepted = job := by
    rw [Master.record, hjobq, ← hnum.head, Function.update_self]
  have hold : ∀ t, m'.Owns t → t ≠ m.accepted → m.Owns t ∧ m'.record t = m.record t := by
    intro t ht hne
    obtain ⟨howns, hslot⟩ := ht.of_accept haccepted hne
    rw [← hnum.head] at hslot
    exact ⟨howns, (congrFun hjobq (slotOf t)).trans (Function.update_of_ne hslot ..)⟩
  have hstarted : ∀ t, m'.Started t → m.Started t ∧ t ≠ m.accepted := by
    rintro t ⟨hlt, hphase⟩
    rw [hpopped] at hlt
    rw [hpop] at hphase
    exact ⟨⟨hlt, hphase⟩, (hlt.trans_le hnum.popped_le).ne⟩
  refine ⟨fun t ht => ?_, fun t ht hs => ?_, fun t ht hfin => ?_, fun t u ht hu hlt => ?_,
    fun t u ht hu hlt hst hsu => ?_⟩
  · by_cases heq : t = m.accepted
    · rw [heq, hnew, htime]
    · obtain ⟨howns, hsame⟩ := hold t ht heq
      rw [hsame]
      exact (h.submitted t howns).trans hc
  · obtain ⟨hs, hne⟩ := hstarted t hs
    obtain ⟨howns, hsame⟩ := hold t ht hne
    rw [hsame]
    exact ⟨(h.started t howns hs).1, (h.started t howns hs).2.trans hc⟩
  · -- the new job is INQUEUE, also where the job stored there before was FINISHED
    have hne : t ≠ m.accepted := by
      rintro rfl
      rw [hnew, hstat] at hfin
      cases hfin
    obtain ⟨howns, hsame⟩ := hold t ht hne
    rw [hsame] at hfin ⊢
    exact ⟨(h.finished t howns hfin).1, (h.finished t howns hfin).2.trans hc⟩
  · have hlast : u < m.accepted + 1 := haccepted ▸ hu.1
    obtain ⟨howns, hsame⟩ := hold t ht (by omega)
    rw [hsame]
    by_cases heq : u = m.accepted
    · rw [heq, hnew, htime]
      exact (h.submitted t howns).trans hc
    · obtain ⟨howns', hsame'⟩ := hold u hu heq
      rw [hsame']
      exact h.submits t u howns howns' hlt
  · obtain ⟨hst, hne⟩ := hstarted t hst
    obtain ⟨hsu, hne'⟩ := hstarted u hsu
    obtain ⟨howns, hsame⟩ := hold t ht hne
    obtain ⟨howns', hsame'⟩ := hold u hu hne'
    rw [hsame, hsame']
    exact h.starts t u howns howns' hlt hst hsu

/-- **Any other step** with a later reading: a job is started at that reading when no later one
is, a job is finished at that reading when it was started, and nothing else changes. -/
lemma next (h : Chronicle c m) (hc : c ≤ c') (haccepted : m'.accepted = m.accepted)
    (hsubmit : ∀ t, (m'.record t).time1 = (m.record t).time1)
    (hstart : ∀ t, m.Owns t → m'.Started t →
      (m.Started t ∧ (m'.record t).time2 = (m.record t).time2) ∨
      ((m'.record t).time2 = c' ∧ ∀ u, m'.Started u → u ≤ t))
    (hfinish : ∀ t, m.Owns t → (m'.record t).jobStat = .finished →
      (m.Started t ∧ (m'.record t).time2 = (m.record t).time2) ∧
      (((m.record t).jobStat = .finished ∧ (m'.record t).time3 = (m.record t).time3) ∨
        (m'.record t).time3 = c')) : Chronicle c' m' := by
  have howns : ∀ {t}, m'.Owns t → m.Owns t := (Master.owns_congr haccepted _).mp
  refine ⟨fun t ht => ?_, fun t ht hs => ?_, fun t ht hfin => ?_, fun t u ht hu hlt => ?_,
    fun t u ht hu hlt hst hsu => ?_⟩
  · rw [hsubmit]
    exact (h.submitted t (howns ht)).trans hc
  · rw [hsubmit]
    rcases hstart t (howns ht) hs with ⟨hold, hsame⟩ | ⟨hnow, -⟩
    · rw [hsame]
      exact ⟨(h.started t (howns ht) hold).1, (h.started t (howns ht) hold).2.trans hc⟩
    · rw [hnow]
      exact ⟨(h.submitted t (howns ht)).trans hc, le_rfl⟩
  · obtain ⟨⟨hs, hsame⟩, hstat⟩ := hfinish t (howns ht) hfin
    rw [hsame]
    rcases hstat with ⟨hold, hsame'⟩ | hnow
    · rw [hsame']
      exact ⟨(h.finished t (howns ht) hold).1, (h.finished t (howns ht) hold).2.trans hc⟩
    · rw [hnow]
      exact ⟨(h.started t (howns ht) hs).2.trans hc, le_rfl⟩
  · rw [hsubmit, hsubmit]
    exact h.submits t u (howns ht) (howns hu) hlt
  · -- of two started jobs the later one may be new; the earlier one may not
    rcases hstart t (howns ht) hst with ⟨hold, hsame⟩ | ⟨-, hlatest⟩
    · rw [hsame]
      rcases hstart u (howns hu) hsu with ⟨hold', hsame'⟩ | ⟨hnow, -⟩
      · rw [hsame']
        exact h.starts t u (howns ht) (howns hu) hlt hold hold'
      · rw [hnow]
        exact (h.started t (howns ht) hold).2.trans hc
    · exact absurd (hlatest u hsu) (not_le.mpr hlt)

section Live

variable {out out' : Multiset Dispatch}

/-- A step that stamps no record. -/
lemma keep (hlive : Live ⟨m, out⟩) (h : Chronicle c m) (hc : c ≤ c')
    (haccepted : m'.accepted = m.accepted)
    (htimes : ∀ i, (m'.srv.jobq i).times = (m.srv.jobq i).times)
    (hstarted : ∀ t, m'.Started t → m.Started t)
    (hstat : ∀ i, (m'.srv.jobq i).jobStat = .finished → (m.srv.jobq i).jobStat = .finished) :
    Chronicle c' m' := by
  have htime2 : ∀ t, (m'.record t).time2 = (m.record t).time2 := fun t =>
    congrArg (fun times => times.2.1) (htimes (slotOf t))
  refine h.next hc haccepted (fun t => congrArg Prod.fst (htimes (slotOf t)))
    (fun t _ hs => .inl ⟨hstarted t hs, htime2 t⟩) fun t ht hfin => ?_
  have hold : (m.record t).jobStat = .finished := hstat (slotOf t) hfin
  exact ⟨⟨hlive.started_of_finished ht hold, htime2 t⟩,
    .inl ⟨hold, congrArg (fun times => times.2.2) (htimes (slotOf t))⟩⟩

/-- The pop thread is through with the waiting loop of a job, the latest one. -/
lemma start (hlive : Live ⟨m, out⟩) (h : Chronicle c m) (hc : c ≤ c')
    (haccepted : m'.accepted = m.accepted) {t₀ : ℕ} (howns₀ : m.Owns t₀) {srv : Server}
    (hsrv : m'.srv = srv.stamp (slotOf t₀) c')
    (htimes : ∀ i, (srv.jobq i).times = (m.srv.jobq i).times)
    (hstat : ∀ i, (srv.jobq i).jobStat = .finished → (m.srv.jobq i).jobStat = .finished)
    (hnot : ¬ m.Started t₀) (hstarted : ∀ t, m'.Started t → t ≠ t₀ → m.Started t)
    (hlatest : ∀ t, m'.Started t → t ≤ t₀) : Chronicle c' m' := by
  -- the stamp goes to one slot, and no other job that has its slot has this one
  have hrecord : ∀ t, m.Owns t → t ≠ t₀ → (m'.record t).time2 = (m.record t).time2 := by
    intro t ht hne
    have hslot : slotOf t ≠ slotOf t₀ := fun heq => hne (ht.eq_of_slotOf_eq howns₀ heq)
    rw [Master.record, hsrv, stamp_time2, if_neg hslot]
    exact congrArg (fun times => times.2.1) (htimes (slotOf t))
  have hother : ∀ i, (m'.srv.jobq i).time1 = (m.srv.jobq i).time1 ∧
      (m'.srv.jobq i).time3 = (m.srv.jobq i).time3 := by
    intro i
    rw [hsrv]
    exact ⟨(Server.writeSlot_field _ (·.time1) (by rfl) i).trans
      (congrArg Prod.fst (htimes i)), (Server.writeSlot_field _ (·.time3) (by rfl) i).trans
      (congrArg (fun times => times.2.2) (htimes i))⟩
  refine h.next hc haccepted (fun t => (hother (slotOf t)).1) (fun t ht hs => ?_)
    fun t ht hfin => ?_
  · by_cases heq : t = t₀
    · subst heq
      refine .inr ⟨?_, hlatest⟩
      rw [Master.record, hsrv, stamp_time2, if_pos rfl]
    · exact .inl ⟨hstarted t hs heq, hrecord t ht heq⟩
  · rw [Master.record, hsrv, stamp_jobStat] at hfin
    have hold : (m.record t).jobStat = .finished := hstat (slotOf t) hfin
    have hs := hlive.started_of_finished ht hold
    have hne : t ≠ t₀ := fun heq => hnot (heq ▸ hs)
    exact ⟨⟨hs, hrecord t ht hne⟩, .inl ⟨hold, (hother (slotOf t)).2⟩⟩

/-- A step of the pop thread. A job is started at two places: where the waiting loop has counted
enough nodes, and at once where the job asks for more nodes than there are. -/
lemma popStep (hlive : Live ⟨m, out⟩) (h : Chronicle c m) (hc : c ≤ c') {numHosts : ℤ}
    {ps : List Packet} (hstep : PopStep numHosts c' m m' ps) : Chronicle c' m' := by
  have hnum : Numbered m := hlive.tallied.labelled.numbered
  -- a job that is taken is marked RUNNING, with its times
  have htimes : ∀ {j srv}, jobQueueTake m.srv = some (some j, srv) →
      ∀ i, (srv.jobq i).times = (m.srv.jobq i).times := by
    intro j srv htake i
    obtain ⟨-, -, -, -, rfl⟩ := jobQueueTake_some htake
    exact Server.writeSlot_field _ (·.times) (by rfl) i
  have hstat : ∀ {j srv}, jobQueueTake m.srv = some (some j, srv) →
      ∀ i, (srv.jobq i).jobStat = .finished → (m.srv.jobq i).jobStat = .finished := by
    intro j srv htake i hfin
    obtain ⟨-, -, -, -, rfl⟩ := jobQueueTake_some htake
    rw [Server.advanceTail_jobq, Server.writeSlot_jobq, update_start_jobStat] at hfin
    split_ifs at hfin with hi
    exact hfin
  cases hstep with
  | init hpc | empty hpc =>
      exact h.keep hlive hc rfl (fun _ => rfl)
        (fun t hs => ⟨hs.1, by rw [hpc]; exact JobPhase.placed_ne_waiting⟩) fun _ => id
  | @take j srv hpc htake hfits =>
      obtain ⟨hne, -⟩ := jobQueueTake_some htake
      have hjob : m.jobOf m.srv.jobTail = m.popped := (hlive.taken hne).2
      refine h.keep hlive hc rfl (htimes htake)
        (fun t hs => ⟨?_, by rw [hpc]; exact JobPhase.placed_ne_waiting⟩) (hstat htake)
      have hlt : t < m.popped + 1 := hs.1
      have hwait : (if m.jobOf m.srv.jobTail = t then JobPhase.waiting else .placed) ≠ .waiting :=
        hs.2
      rw [hjob] at hwait
      exact lt_of_le_of_ne (Nat.lt_succ_iff.mp hlt) fun heq => hwait (if_pos heq.symm)
  | @skip j srv hpc htake hlarge =>
      obtain ⟨hne, hslot, -⟩ := jobQueueTake_some htake
      refine h.start hlive hc rfl (hlive.taken hne).1 (by rw [← hnum.tail, ← hslot])
        (htimes htake) (hstat htake) (fun hs => lt_irrefl _ hs.1) (fun t hs hnot => ?_)
        fun t hs => Nat.lt_succ_iff.mp hs.1
      refine ⟨lt_of_le_of_ne (Nat.lt_succ_iff.mp hs.1) hnot, ?_⟩
      rw [hpc]
      exact JobPhase.placed_ne_waiting
  | scan hpc | again hpc =>
      exact h.keep hlive hc rfl (fun _ => rfl) (fun t hs => ⟨hs.1, by rw [hpc]; exact hs.2⟩)
        fun _ => id
  | @enough j t₀ count i hpc hi hcount =>
      have hheld := Master.held_of_wait hpc
      have hcur : t₀ + 1 = m.popped := hlive.current j t₀ hheld
      obtain ⟨-, hslot, -⟩ := hlive.tallied.labelled.held j t₀ hheld
      refine h.start hlive hc rfl (hlive.owns_held hheld) (by rw [hslot]) (fun _ => rfl)
        (fun _ => id) (fun hs => hs.2 ?_) (fun t hs hne => ⟨hs.1, ?_⟩) fun t hs => ?_
      · rw [hpc]
        exact if_pos rfl
      · rw [hpc, PopPc.phase, if_neg (Ne.symm hne)]
        exact JobPhase.placed_ne_waiting
      · have hlt : t < m.popped := hs.1
        omega
  | assign hpc | next hpc | giveUp hpc | finish hpc =>
      exact h.keep hlive hc rfl (fun _ => rfl)
        (fun t hs => ⟨hs.1, by rw [hpc]; exact PopPc.phase_dispatch_ne _ _ _ _ t⟩) fun _ => id

/-- **One step of the master** keeps the chronicle, if it does not read the clock before `c`. -/
lemma step (hlive : Live ⟨m, out⟩) (hlive' : Live ⟨m', out'⟩) (h : Chronicle c m) {numHosts : ℤ}
    {a : MasterAct} {ps : List Packet} (hstep : MasterStep numHosts m a m' ps)
    (hc : ∀ now ∈ a.now, c ≤ now) : Chronicle (a.now.getD c) m' := by
  cases hstep with
  | submit req now =>
      exact h.submit hlive.tallied.labelled.numbered (hc now rfl) rfl rfl rfl rfl rfl rfl
  | cancel | hostStatus =>
      exact h.keep hlive le_rfl rfl (fun _ => rfl) (fun _ => id) fun _ => id
  | pop now hpop => exact h.popStep hlive (hc now rfl) hpop
  | other msg job now =>
      exact h.keep hlive (hc now rfl) rfl (fun _ => rfl) (fun _ => id) fun _ => id
  | report msg job now =>
      exact h.keep hlive (hc now rfl) rfl (fun _ => rfl) (fun _ => id) fun _ => id
  | lastReport msg job now =>
      refine h.next (hc now rfl) rfl
        (fun t => Server.writeSlot_field _ (·.time1) (by rfl) (slotOf t))
        (fun t _ hs => .inl ⟨hs, Server.writeSlot_field _ (·.time2) (by rfl) (slotOf t)⟩)
        fun t ht hfin => ⟨⟨?_, Server.writeSlot_field _ (·.time2) (by rfl) (slotOf t)⟩, ?_⟩
      · -- only a job that was started is FINISHED, before as after the report
        exact hlive'.started_of_finished ht hfin
      · have htime := finish_time3 (m.srv.countDown msg.src msg.m1) msg.m1 now (slotOf t)
        have hstat := finish_jobStat (m.srv.countDown msg.src msg.m1) now (slotOf t) msg.m1
        split_ifs at htime hstat with hslot
        · exact .inr htime
        · exact .inl ⟨hstat.symm.trans hfin, htime⟩

end Live

end Chronicle

/-! ### Runs -/

section Cluster

variable {numHosts : ℤ} {accepts : Network} {ips : ℤ → Bytes} {s : Sys}

/-- The jobs of the master are in order, with some dispatches outstanding. -/
lemma exists_live
    (h : (clusterMachine numHosts accepts ips).Reach (OnMaster numHosts FreshSlots) s) :
    ∃ out, Live ⟨s.master, out⟩ := by
  obtain ⟨t, ht, hdelay⟩ := exists_delayed h
  exact ⟨t.outstanding numHosts, hdelay.master ▸ live_of_reach (fun _ _ => id) ht⟩

/-- The readings so far, and those to come, are not before the first one. -/
lemma exists_first_reading {times : List ℤ} (h : times.Pairwise (· ≤ ·)) :
    ∃ c, (c :: times).Pairwise (· ≤ ·) := by
  cases times with
  | nil => exact ⟨0, List.pairwise_singleton ..⟩
  | cons now times =>
      refine ⟨now, List.pairwise_cons.mpr ⟨fun u hu => ?_, h⟩⟩
      rcases List.mem_cons.mp hu with rfl | hlater
      · exact le_rfl
      · exact (List.pairwise_cons.mp h).1 u hlater

/-- **The job table is a chronicle.**  Over any network, in every run in which the readings of
the clock do not go back and each SUBMIT comes after the job stored in its slot before was marked
FINISHED, the times in the slot of a job are in order: it is started no earlier than it was
submitted, and FINISHED only when it was started, and no earlier.  Of two jobs that have their
slots the first was submitted and started no later than the second. -/
theorem times_in_order {ls : List SysAct}
    (hrun : (clusterMachine numHosts accepts ips).run ls (.init ips) = some s)
    (hguard : (clusterMachine numHosts accepts ips).GuardedRun (OnMaster numHosts FreshSlots) ls
      (.init ips))
    (hclock : (ls.filterMap (SysAct.now numHosts)).Pairwise (· ≤ ·)) {t : ℕ}
    (ht : s.master.Owns t) :
    (s.master.Started t → (s.master.record t).time1 ≤ (s.master.record t).time2) ∧
      ((s.master.record t).jobStat = .finished →
        s.master.Started t ∧ (s.master.record t).time2 ≤ (s.master.record t).time3) ∧
      ∀ u, s.master.Owns u → t < u →
        (s.master.record t).time1 ≤ (s.master.record u).time1 ∧
        (s.master.Started u → s.master.Started t ∧
          (s.master.record t).time2 ≤ (s.master.record u).time2) := by
  have hinit : (clusterMachine numHosts accepts ips).Reach (OnMaster numHosts FreshSlots)
      (.init ips) := .init
  obtain ⟨out, hlive⟩ := exists_live (hinit.run hguard hrun)
  obtain ⟨first, hfirst⟩ := exists_first_reading hclock
  obtain ⟨c, h⟩ : ∃ c, Chronicle c s.master := by
    refine hinit.clocked (I := fun c u => Chronicle c u.master) hguard hrun hfirst
      (Chronicle.init first ips) fun u l u' c hu hg hs hc hchron => ?_
    obtain ⟨_, hlive⟩ := exists_live hu
    rcases master_sysStep (sysStep_spec hs) with hsame | ⟨a, ps, ha, hm⟩
    · -- a step of a node or of the network: the clock may go on, the table does not change
      have hle : c ≤ (SysAct.now numHosts l).getD c := by
        cases hnow : SysAct.now numHosts l with
        | none => exact le_rfl
        | some now => exact hc now hnow
      rw [hsame]
      exact hchron.keep hlive hle rfl (fun _ => rfl) (fun _ => id) fun _ => id
    · obtain ⟨_, hlive'⟩ := exists_live (hu.step hg hs)
      rw [SysAct.now, ha, Option.bind_some] at hc ⊢
      exact hchron.step hlive hlive' (masterStep_spec hm) hc
  refine ⟨fun hs => (h.started t ht hs).1, fun hfin => ?_, fun u hu hlt => ?_⟩
  · exact ⟨hlive.started_of_finished ht hfin, (h.finished t ht hfin).1⟩
  · refine ⟨h.submits t u ht hu hlt, fun hs => ?_⟩
    have hst := hlive.started_of_lt hlt hs
    exact ⟨hst, h.starts t u ht hu hlt hst hs⟩

end Cluster

/-- The jobs `a` and `b` are submitted at 3 and 4; the first is taken and started at 5 and
finished at 9, and then the second is started at 10. -/
def timedTwo : List SysAct :=
  [.submit ⟨1, [97], 2, 1, [117], 2⟩ 3, .submit ⟨1, [98], 2, 1, [117], 2⟩ 4] ++
    List.replicate 6 (.pop 5) ++
    [.deliver (serverSingleJobSubmit serverMachineId 1 [97] 0 0) true 6,
      .node 1 .record, .node 1 .begin, .node 1 (.fork true), .node 1 (.procExit 0),
      .node 1 .join, .node 1 .sendReturn,
      .deliver (Node.jobReturn 1 ⟨0, 0, [97]⟩) true 9] ++
    List.replicate 3 (.pop 10)

/-- The times of a job that is FINISHED, and of one that was started behind it. -/
theorem times_in_order_two : ∃ s,
    (clusterMachine 1 lossless fun _ => []).run timedTwo (.init fun _ => []) = some s ∧
      (s.master.record 0).jobStat = .finished ∧ (s.master.record 0).times = (3, 5, 9) ∧
      (s.master.record 1).time1 = 4 ∧ (s.master.record 1).time2 = 10 ∧
      (s.master.record 0).time1 ≤ (s.master.record 0).time2 ∧
      (s.master.record 0).time2 ≤ (s.master.record 0).time3 ∧
      (s.master.record 0).time1 ≤ (s.master.record 1).time1 ∧
      (s.master.record 0).time2 ≤ (s.master.record 1).time2 := by
  have hrun : (((clusterMachine 1 lossless fun _ => []).restrict fun s l =>
      (l.masterAct 1).all fun a => decide (FreshSlots s.master a)).run timedTwo
        (.init fun _ => [])).any (fun s =>
          decide (s.master.accepted = 2 ∧ (s.master.record 0).jobStat = .finished ∧
            (s.master.record 0).times = (3, 5, 9)) &&
            decide ((s.master.record 1).time1 = 4 ∧ (s.master.record 1).time2 = 10 ∧
              s.master.Started 1)) = true := by
    decide +kernel
  obtain ⟨s, hguard, hrun', hp⟩ := exists_guardedRun_of_tested FreshSlots hrun
  rw [Bool.and_eq_true, decide_eq_true_eq, decide_eq_true_eq] at hp
  obtain ⟨⟨haccepted, hfin, htimes⟩, htime1, htime2, hstarted⟩ := hp
  have howns : ∀ t < 2, s.master.Owns t := by
    intro t ht
    rw [Master.Owns, haccepted, maxJobQueue]
    exact ⟨ht, by omega⟩
  obtain ⟨hstart, hfinish, hpairs⟩ := times_in_order hrun' hguard (by decide)
    (howns 0 Nat.two_pos)
  obtain ⟨hstarted₀, hle⟩ := hfinish hfin
  obtain ⟨hsubmits, hstarts⟩ := hpairs 1 (howns 1 one_lt_two) Nat.one_pos
  exact ⟨s, hrun', hfin, htimes, htime1, htime2, hstart hstarted₀, hle, hsubmits,
    (hstarts hstarted).2⟩

end Epbs
