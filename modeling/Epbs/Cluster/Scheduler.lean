/-
The cluster as a batch scheduler.

* `Ledger.batch`: the scheduler a ledger stands for: the queue, the job in hand,
  the outstanding dispatches and the jobs marked FINISHED;
* `Follows`, `follows_step`: every guarded step of the ledger is a step of the
  scheduler or none;
* `Scheduled`: the scheduler is in a state it reaches, and goes along
  (`Scheduled.follow`);
* `cluster_refines_batch`: so the cluster refines the scheduler;
* `jobStatOf`, `shown_status_scheduled`: what the clients are shown is the
  status of the job in the scheduler.
-/
import Epbs.Machine.Batch
import Epbs.Cluster.Accounts
import Epbs.Wire.JobHistory

namespace Epbs

/-! ### The scheduler behind a ledger -/

/-- The scheduler of a ledger, with the node counts the jobs came with: the slots
forget those of the jobs they no longer hold. -/
def Ledger.batch (asked : ℕ → ℤ) (L : Ledger) : Batch ℕ ℤ where
  submitted := List.range L.master.accepted
  asked := asked
  waiting := List.range' L.master.popped (L.master.accepted - L.master.popped)
  placing := L.master.held.map Prod.snd
  given := L.master.assigned
  work := L.out.map Dispatch.target
  finished := (Finset.range L.master.accepted).filter fun t => L.master.finished t = true

/-- The node counts in the slots are those the jobs came with. -/
def Asks (asked : ℕ → ℤ) (m : Master) : Prop :=
  ∀ t, m.Owns t → asked t = (m.srv.jobq (slotOf t)).numReqNodes

/-- The scheduler behind a ledger, in a state that it reaches. -/
structure Scheduled (numHosts : ℤ) (asked : ℕ → ℤ) (L : Ledger) : Prop where
  asks : Asks asked L.master
  reach : (batchMachine numHosts fun _ => 0).Reach Machine.always (L.batch asked)

/-- **A step of the scheduler, or none**, between the schedulers of two ledgers. -/
def Follows (numHosts : ℤ) (asked asked' : ℕ → ℤ) (L L' : Ledger) : Prop :=
  L'.batch asked' = L.batch asked ∨ ∃ act : BatchAct ℕ ℤ,
    (L.batch asked).Enabled numHosts act ∧ L'.batch asked' = (L.batch asked).after act

section Steps

variable {numHosts : ℤ} {asked : ℕ → ℤ} {L L' : Ledger}

lemma mem_finished_batch (asked : ℕ → ℤ) (L : Ledger) (t : ℕ) :
    t ∈ (L.batch asked).finished ↔ t < L.master.accepted ∧ L.master.finished t = true := by
  rw [← Finset.mem_range]
  exact Finset.mem_filter

/-- The scheduler of a ledger, piece by piece. -/
lemma batch_eq {b : Batch ℕ ℤ} (hsubmitted : List.range L'.master.accepted = b.submitted)
    (hasked : asked = b.asked)
    (hwaiting : List.range' L'.master.popped (L'.master.accepted - L'.master.popped) = b.waiting)
    (hplacing : L'.master.held.map Prod.snd = b.placing)
    (hgiven : ∀ t, L'.master.assigned t = b.given t)
    (hwork : L'.out.map Dispatch.target = b.work)
    (hfinished : ∀ t, t < L'.master.accepted ∧ L'.master.finished t = true ↔ t ∈ b.finished) :
    L'.batch asked = b := by
  ext1
  · exact hsubmitted
  · exact hasked
  · exact hwaiting
  · exact hplacing
  · exact funext hgiven
  · exact hwork
  · ext t
    exact (mem_finished_batch asked L' t).trans (hfinished t)

/-- A step that does not touch the queue, the job in hand and the dispatches. -/
lemma batch_of_same (haccepted : L'.master.accepted = L.master.accepted)
    (hpopped : L'.master.popped = L.master.popped)
    (hheld : L'.master.held.map Prod.snd = L.master.held.map Prod.snd)
    (hsent : ∀ t, L'.master.assigned t = L.master.assigned t)
    (hfin : ∀ t, L'.master.finished t = L.master.finished t) (hout : L'.out = L.out) :
    L'.batch asked = L.batch asked := by
  rw [Ledger.batch, Ledger.batch, haccepted, hpopped, hheld, hout, funext hsent, funext hfin]

/-- A SUBMIT is a job that comes. It is numbered by the submits before it, so that the list of the
submitted jobs stays the numbers below `accepted`. -/
lemma batch_submit (h : Live L) (nodes : ℤ)
    (haccepted : L'.master.accepted = L.master.accepted + 1)
    (hpopped : L'.master.popped = L.master.popped) (hheld : L'.master.held = L.master.held)
    (hlog : L'.master.log = L.master.log) (hout : L'.out = L.out) :
    Follows numHosts asked (Function.update asked L.master.accepted nodes) L L' := by
  have hpop := h.tallied.labelled.numbered.popped_le
  have hfin : L.master.finished L.master.accepted = false := (h.fresh _ le_rfl).2.2
  refine .inr ⟨.submit L.master.accepted nodes, ?_, ?_⟩
  · exact fun hmem => lt_irrefl _ (List.mem_range.mp hmem)
  · refine batch_eq ?_ rfl ?_ (congrArg (Option.map Prod.snd) hheld) (fun t => ?_)
      (congrArg (Multiset.map Dispatch.target) hout) fun t => ?_
    · rw [haccepted, List.range_succ]
      rfl
    · rw [haccepted, hpopped, Nat.sub_add_comm hpop, List.range'_1_concat,
        Nat.add_sub_of_le hpop]
      rfl
    · exact congrArg (List.countP (Event.isAssigned t)) hlog
    · refine Iff.trans ?_ (mem_finished_batch asked L _).symm
      have hsame : L'.master.finished t = L.master.finished t := by
        rw [Master.finished, hlog, Master.finished]
      rw [haccepted, hsame]
      refine and_congr_left fun ht => ?_
      have hne : t ≠ L.master.accepted := by
        rintro rfl
        rw [hfin] at ht
        cases ht
      omega

/-- The oldest job that waits is the next one. -/
lemma batch_waiting (asked : ℕ → ℤ) (hpop : L.master.popped < L.master.accepted) :
    (L.batch asked).waiting.head? = some L.master.popped ∧
      (L.batch asked).waiting.tail =
        List.range' (L.master.popped + 1) (L.master.accepted - (L.master.popped + 1)) := by
  obtain ⟨n, hn⟩ : ∃ n, L.master.accepted - L.master.popped = n + 1 :=
    ⟨_, (Nat.succ_pred_eq_of_pos (Nat.sub_pos_of_lt hpop)).symm⟩
  have hrest : L.master.accepted - (L.master.popped + 1) = n := by omega
  simp only [Ledger.batch, hn, hrest, List.range'_succ]
  exact ⟨rfl, rfl⟩

/-- A job that is taken is started, or rejected if it asks for too many nodes: `job_queue_pop`
marks it RUNNING in both cases, and only the scheduler tells them apart. -/
lemma batch_take (h : Live L) (hasks : Asks asked L.master) {j : PoppedJob} {srv : Server}
    (hidle : L.master.pop = .idle) (htake : jobQueueTake L.master.srv = some (some j, srv))
    (haccepted : L'.master.accepted = L.master.accepted)
    (hpopped : L'.master.popped = L.master.popped + 1)
    (hheld : L'.master.held = if j.numReqNodes ≤ numHosts then
      some (j, L.master.jobOf L.master.srv.jobTail) else none)
    (hlog : L'.master.log = L.master.log) (hout : L'.out = L.out) :
    Follows numHosts asked asked L L' := by
  obtain ⟨hne, -, -, hneed, -⟩ := jobQueueTake_some htake
  obtain ⟨howns, hjob⟩ := h.taken hne
  have hpop := h.tallied.labelled.numbered.popped_lt hne
  have hnone : (L.batch asked).placing = none := by
    show L.master.held.map Prod.snd = none
    rw [Master.held, hidle]
    rfl
  have hneed : j.numReqNodes = asked L.master.popped := by
    rw [hneed, hasks _ howns, h.tallied.labelled.numbered.tail]
  obtain ⟨hhead, htail⟩ := batch_waiting asked hpop
  -- either way the job leaves the queue, and nothing else changes but the job in hand
  have hafter : ∀ next, L'.master.held.map Prod.snd = next → L'.batch asked =
      { L.batch asked with waiting := (L.batch asked).waiting.tail, placing := next } := by
    intro next hnext
    refine batch_eq (congrArg List.range haccepted) rfl ?_ hnext
      (fun t => congrArg (List.countP (Event.isAssigned t)) hlog)
      (congrArg (Multiset.map Dispatch.target) hout) fun t => ?_
    · rw [haccepted, hpopped]
      exact htail.symm
    · rw [haccepted, Master.finished, hlog]
      exact (mem_finished_batch asked L _).symm
  by_cases hfits : j.numReqNodes ≤ numHosts
  · rw [if_pos hfits] at hheld
    refine .inr ⟨.start L.master.popped, ⟨hnone, hhead, hneed.symm.trans_le hfits⟩, ?_⟩
    exact hafter _ (by rw [hheld, ← hjob]; rfl)
  · rw [if_neg hfits] at hheld
    refine .inr ⟨.reject L.master.popped, ⟨hnone, hhead, (lt_of_not_ge hfits).trans_eq hneed⟩, ?_⟩
    rw [hafter none (by rw [hheld]; rfl), ← hnone]
    rfl

/-- A submit message gives the job in hand a node that does not work. That the node is idle in
the scheduler too is the exclusion of dispatches; that the job still wants one is the exact
count of its rounds. -/
lemma batch_assign (h : Exactly numHosts L) (hexcl : Exclusive L) (hasks : Asks asked L.master)
    {j : PoppedJob} {t : ℕ} {i k : ℤ} (hpc : L.master.pop = .dispatch j t i k)
    (hi : i ≤ j.numReqNodes) (hfree : L.master.srv.pcstat k = .free)
    (haccepted : L'.master.accepted = L.master.accepted)
    (hpopped : L'.master.popped = L.master.popped) (hheld : L'.master.held = L.master.held)
    (hlog : L'.master.log = .assigned t k :: L.master.log)
    (hout : L'.out = ⟨t, k, j.jobId⟩ ::ₘ L.out) : Follows numHosts asked asked L L' := by
  obtain ⟨hhand, hphase, -, hneed⟩ := h.live.dispatching hpc
  have howns := h.live.owns_held hhand
  have hexact := h.exact t howns
  simp only [JobView.Exact, hphase] at hexact
  -- a FREE node has no dispatch outstanding
  have hnone : L.out.countP (fun d => d.node = k) = 0 := by
    have hbusy := hexcl.busy k
    rw [hfree] at hbusy
    exact hbusy
  refine .inr ⟨.give t k, ⟨?_, ?_, ?_⟩, ?_⟩
  · show L.master.held.map Prod.snd = some t
    rw [hhand]
    rfl
  · show (L.master.assigned t : ℤ) < asked t
    have hround : (L.master.assigned t : ℤ) + 1 = i := hexact.2
    rw [hasks t howns]
    simp only [Master.view] at hneed
    omega
  · intro p hp
    obtain ⟨d, hd, rfl⟩ := Multiset.mem_map.mp hp
    exact Multiset.countP_eq_zero.mp hnone d hd
  · refine batch_eq (congrArg List.range haccepted) rfl ?_
      (congrArg (Option.map Prod.snd) hheld) (fun u => ?_) ?_ fun u => ?_
    · rw [haccepted, hpopped]
      rfl
    · show L'.master.assigned u
        = Function.update L.master.assigned t (L.master.assigned t + 1) u
      rw [Master.assigned, hlog, countP_isAssigned_cons]
      by_cases hu : u = t
      · rw [hu, Function.update_self, if_pos rfl]
        rfl
      · rw [Function.update_of_ne hu, if_neg (Ne.symm hu)]
        rfl
    · rw [hout, Multiset.map_cons]
      rfl
    · refine Iff.trans ?_ (mem_finished_batch asked L _).symm
      simp [haccepted, Master.finished, hlog]

/-- The end of the dispatch loops: the job got all its nodes. -/
lemma batch_placed (h : Exactly numHosts L) (hasks : Asks asked L.master)
    {j : PoppedJob} {t : ℕ} {i k : ℤ} (hpc : L.master.pop = .dispatch j t i k)
    (hi : j.numReqNodes < i) (haccepted : L'.master.accepted = L.master.accepted)
    (hpopped : L'.master.popped = L.master.popped) (hheld : L'.master.held = none)
    (hlog : L'.master.log = L.master.log) (hout : L'.out = L.out) :
    Follows numHosts asked asked L L' := by
  obtain ⟨hhand, hphase, -, hneed⟩ := h.live.dispatching hpc
  have howns := h.live.owns_held hhand
  have hexact := h.exact t howns
  simp only [JobView.Exact, hphase] at hexact
  refine .inr ⟨.placed t, ⟨?_, ?_⟩, ?_⟩
  · show L.master.held.map Prod.snd = some t
    rw [hhand]
    rfl
  · show asked t ≤ (L.master.assigned t : ℤ)
    have hround : (L.master.assigned t : ℤ) + 1 = i := hexact.2
    rw [hasks t howns]
    simp only [Master.view] at hneed
    omega
  · refine batch_eq (congrArg List.range haccepted) rfl ?_
      (congrArg (Option.map Prod.snd) hheld)
      (fun u => congrArg (List.countP (Event.isAssigned u)) hlog)
      (congrArg (Multiset.map Dispatch.target) hout) fun u => ?_
    · rw [haccepted, hpopped]
      rfl
    · rw [haccepted, Master.finished, hlog]
      exact (mem_finished_batch asked L _).symm

/-- **The last report** of a job that is not in hand is the one after which no dispatch of
the job is outstanding. -/
lemma lastReport_iff (h : Exactly numHosts L) (hasks : Asks asked L.master)
    (hsound : (L.batch asked).Sound numHosts) {d : Dispatch} (hd : d ∈ L.out)
    (hnot : ∀ j, L.master.held ≠ some (j, d.job)) :
    L.master.srv.jobnodes d.jobId - 1 = 0 ↔
      ∀ p ∈ (L.batch asked).work.erase (d.job, d.node), p.1 ≠ d.job := by
  obtain ⟨howns, hsent⟩ := h.live.of_mem hd
  have hid := (h.live.tallied.ids d hd).2
  have hok := h.live.ok d.job howns
  have hexact := h.exact d.job howns
  have htally := h.live.tallied.tally d.job
  -- the job is past its dispatch, and was given what it asks for
  have hplacing : (L.batch asked).placing ≠ some d.job := by
    intro heq
    obtain ⟨⟨j, t⟩, hheld, rfl⟩ := Option.map_eq_some_iff.mp heq
    exact hnot j hheld
  have hphase : (L.master.view d.job).phase = .placed := by
    refine Exactly.phase_eq_placed_iff.mpr ⟨?_, hnot⟩
    by_contra hqueued
    have hcontra := hok.2
    have hq : (L.master.view d.job).phase = .queued := if_pos (le_of_not_gt hqueued)
    simp only [hq] at hcontra
    have hzero : L.master.assigned d.job = 0 := hcontra.2.2.1
    omega
  obtain ⟨hgiven, hfits⟩ := hsound.complete d.job (show 0 < L.master.assigned d.job by omega)
    hplacing
  have hneed : (L.master.assigned d.job : ℤ) = (L.master.view d.job).need :=
    hgiven.trans (hasks _ howns)
  have hunfinished : (L.master.view d.job).finished = false := by
    by_contra hfin
    have hall := (hok.of_finished (Bool.not_eq_false _ ▸ hfin)).2.2.2
    exact absurd hall (ne_of_lt hsent)
  simp only [JobView.Exact, hphase] at hexact
  have hcounter := ((hexact (by omega) ((hasks _ howns).symm.trans_le hfits)).2 hunfinished).1
  have hcount : L.master.srv.jobnodes d.jobId
      = dispatchesOf (L.out.erase d) d.job + 1 := by
    have hsplit : dispatchesOf L.out d.job = dispatchesOf (L.out.erase d) d.job + 1 := by
      conv_lhs => rw [← Multiset.cons_erase hd]
      exact (Multiset.countP_cons ..).trans (congrArg _ (if_pos rfl))
    have hslot : (L.master.view d.job).counter = L.master.srv.jobnodes d.jobId := by
      rw [hid]
      rfl
    have hheard : (L.master.view d.job).heard = L.master.handled d.job := rfl
    omega
  have hwork : (L.batch asked).work.erase (d.job, d.node)
      = (L.out.erase d).map Dispatch.target := by
    show (L.out.map Dispatch.target).erase d.target = _
    conv_lhs => rw [← Multiset.cons_erase hd, Multiset.map_cons, Multiset.erase_cons_head]
  rw [hwork, hcount, add_sub_cancel_right, Nat.cast_eq_zero, dispatchesOf,
    Multiset.countP_eq_zero]
  simp only [Multiset.mem_map, forall_exists_index, and_imp, forall_apply_eq_imp_iff₂]
  rfl

/-- A FINISHED report takes a node off its job, and the last one finishes it. The server counts
`jobnodes` down and the scheduler looks for work left: `lastReport_iff` says that these
agree. -/
lemma batch_report (h : Exactly numHosts L) (hasks : Asks asked L.master)
    (hsound : (L.batch asked).Sound numHosts) {d : Dispatch} (hd : d ∈ L.out)
    (hnot : ∀ j, L.master.held ≠ some (j, d.job))
    (haccepted : L'.master.accepted = L.master.accepted)
    (hpopped : L'.master.popped = L.master.popped) (hheld : L'.master.held = L.master.held)
    (hsent : ∀ t, L'.master.assigned t = L.master.assigned t)
    (hfin : ∀ t, L'.master.finished t = true ↔
      L.master.finished t = true ∨ t = d.job ∧ L.master.srv.jobnodes d.jobId - 1 = 0)
    (hout : L'.out = L.out.erase d) : Follows numHosts asked asked L L' := by
  have hlast := lastReport_iff h hasks hsound hd hnot
  have hlt := (h.live.tallied.ids d hd).1
  refine .inr ⟨.report d.job d.node, ⟨Multiset.mem_map_of_mem _ hd, ?_⟩, ?_⟩
  · intro heq
    obtain ⟨⟨j, t⟩, hhand, rfl⟩ := Option.map_eq_some_iff.mp heq
    exact hnot j hhand
  · refine batch_eq (congrArg List.range haccepted) rfl ?_
      (congrArg (Option.map Prod.snd) hheld) hsent ?_ fun t => ?_
    · rw [haccepted, hpopped]
      rfl
    · show L'.out.map Dispatch.target = (L.out.map Dispatch.target).erase d.target
      conv_rhs => rw [← Multiset.cons_erase hd, Multiset.map_cons, Multiset.erase_cons_head]
      rw [hout]
    · rw [haccepted, hfin]
      simp only [Batch.after]
      -- the last report of the job, or one of those before
      by_cases hzero : L.master.srv.jobnodes d.jobId - 1 = 0
      · rw [if_pos (hlast.mp hzero), Finset.mem_insert, mem_finished_batch]
        constructor
        · rintro ⟨hle, hf | ⟨heq, -⟩⟩
          · exact .inr ⟨hle, hf⟩
          · exact .inl heq
        · rintro (rfl | ⟨hle, hf⟩)
          · exact ⟨hlt, .inr ⟨rfl, hzero⟩⟩
          · exact ⟨hle, .inl hf⟩
      · rw [if_neg (hlast.not.mp hzero), mem_finished_batch]
        exact and_congr_right fun _ => or_iff_left fun hf => hzero hf.2

/-- The node counts of a ledger whose step is no SUBMIT. -/
lemma Asks.of_same (h : Asks asked L.master) {a : MasterAct} {ps : List Packet}
    (hm : MasterStep numHosts L.master a L'.master ps) (ha : ∀ req now, a ≠ .submit req now) :
    Asks asked L'.master := by
  obtain ⟨haccepted, hneed⟩ := numReqNodes_masterStep hm ha
  intro t ht
  rw [hneed]
  exact h t ((Master.owns_congr haccepted t).mp ht)

/-- A step of the pop thread. -/
lemma follows_popStep (h : Exactly numHosts L) (hexcl : Exclusive L)
    (hasks : Asks asked L.master) {now : ℤ} {m' : Master} {ps : List Packet}
    (hg : CompletionGuard numHosts L.master (.pop now))
    (hpop : PopStep numHosts now L.master m' ps) :
    Follows numHosts asked asked L
      ⟨m', L.out + (ps.filterMap Packet.dispatch : Multiset Dispatch)⟩ := by
  cases hpop with
  | init hpc =>
      refine .inl (batch_of_same rfl rfl ?_ (fun _ => rfl) (fun _ => rfl) (add_zero _))
      simp only [Master.held, hpc]
  | empty hpc hempty =>
      exact .inl (batch_of_same rfl rfl rfl (fun _ => rfl) (fun _ => rfl) (add_zero _))
  | take hpc htake hfits =>
      exact batch_take h.live hasks hpc htake rfl rfl (if_pos hfits).symm rfl (add_zero _)
  | skip hpc htake hlarge =>
      refine batch_take h.live hasks hpc htake rfl rfl ?_ rfl (add_zero _)
      exact (if_neg (not_le_of_gt hlarge)).symm
  | scan hpc hi | again hpc hi | enough hpc hi =>
      refine .inl (batch_of_same rfl rfl ?_ (fun _ => rfl) (fun _ => rfl) (add_zero _))
      rw [Master.held_of_wait hpc]
      rfl
  | assign hpc hi hk hin hfree =>
      refine batch_assign h hexcl hasks hpc hi hfree rfl rfl
        (Master.held_of_dispatch hpc).symm rfl ?_
      exact (add_comm _ _).trans (Multiset.singleton_add ..)
  | next hpc hi hk hbusy =>
      refine .inl (batch_of_same rfl rfl ?_ (fun _ => rfl) (fun _ => rfl) (add_zero _))
      rw [Master.held_of_dispatch hpc]
      rfl
  | giveUp hpc hi hk => exact absurd (hg.2 _ _ _ _ hpc hi) (not_le_of_gt hk)
  | finish hpc hi hin => exact batch_placed h hasks hpc hi rfl rfl rfl rfl (add_zero _)

/-- **One guarded step of the ledger** is a step of the scheduler or none. Queries, other
messages and the scans of the pop thread are none, and so is a CANCEL, which stops no job. -/
lemma follows_step (h : Exactly numHosts L) (hexcl : Exclusive L)
    (hsched : Scheduled numHosts asked L) {a : MasterAct}
    (hg : CompletionGuard numHosts L.master a) (hstep : L.step numHosts a = some L') :
    ∃ asked', Asks asked' L'.master ∧ Follows numHosts asked asked' L L' := by
  obtain ⟨ps, hm, hans, hout⟩ := ledgerStep_spec hstep
  have hasks := hsched.asks
  have hsame := fun ha => hasks.of_same hm ha
  obtain ⟨m', out'⟩ := L'
  dsimp only at hm hout hsame
  subst hout
  cases hm with
  | submit req now pcomm username =>
      refine ⟨Function.update asked L.master.accepted req.numReqNodes, fun t ht => ?_,
        batch_submit h.live _ rfl rfl rfl rfl (add_zero _)⟩
      simp only [Server.advanceHead_jobq, Server.writeSlot_jobq]
      rw [h.live.tallied.labelled.numbered.head]
      -- the new job reads what it asked for in its slot, the others have theirs still
      by_cases heq : t = L.master.accepted
      · rw [heq, Function.update_self, Function.update_self]
        rfl
      · obtain ⟨hown, hslot⟩ := ht.of_accept rfl heq
        rw [Function.update_of_ne heq, Function.update_of_ne hslot]
        exact hasks t hown
  | cancel jobId hhosts =>
      refine ⟨asked, hsame (by simp),
        .inl (batch_of_same rfl rfl rfl (fun t => ?_) (fun t => ?_) ?_)⟩
      · simp [Master.assigned, List.countP_map, Function.comp_def, Event.isAssigned]
      · simp [Master.finished]
      · simp [outAfter, List.filterMap_map, Function.comp_def]
  | pop now hpop => exact ⟨asked, hsame (by simp), follows_popStep h hexcl hasks hg hpop⟩
  | other msg job now hm2 =>
      refine ⟨asked, hsame (by simp), .inl (batch_of_same rfl rfl rfl ?_ ?_ (if_neg hm2))⟩
      · exact fun _ => rfl
      · exact fun _ => rfl
  | report msg job now hm2 hsrc hjob hmore =>
      refine ⟨asked, hsame (by simp), batch_report h hasks (Batch.sound_of_reach hsched.reach)
        (hans hm2) hg rfl rfl rfl (fun t => ?_) (fun t => ?_) (if_pos hm2)⟩
      · simp [Master.assigned, Event.isAssigned]
      · simp only [Msg.reported, hmore, and_false, or_false]
        simp [Master.finished]
  | lastReport msg job now hm2 hsrc hjob hlast =>
      -- the slot is still the one of the job that the message was sent for
      have hid : msg.m1 = slotOf job := (h.live.tallied.ids _ (hans hm2)).2
      have howner : L.master.jobOf msg.m1 = job := by
        rw [hid]
        exact (h.live.tallied.labelled.numbered.owner _ (h.live.of_mem (hans hm2)).1).1
      refine ⟨asked, hsame (by simp), batch_report h hasks (Batch.sound_of_reach hsched.reach)
        (hans hm2) hg rfl rfl rfl (fun t => ?_) (fun t => ?_) (if_pos hm2)⟩
      · simp [Master.assigned, Event.isAssigned]
      · simp only [Msg.reported, hlast, and_true]
        simp [Master.finished, howner, or_comm]
  | hostStatus msg job =>
      refine ⟨asked, hsame (by simp), .inl (batch_of_same rfl rfl rfl (fun t => ?_) (fun t => ?_)
        (add_zero _))⟩
      · simp [Master.assigned, Event.isAssigned]
      · simp [Master.finished]

/-- The scheduler goes along. -/
lemma Scheduled.follow {asked' : ℕ → ℤ} (h : Scheduled numHosts asked L)
    (hasks : Asks asked' L'.master) (hfollows : Follows numHosts asked asked' L L') :
    Scheduled numHosts asked' L' := by
  refine ⟨hasks, ?_⟩
  rcases hfollows with hsame | ⟨act, hact, hafter⟩
  · rw [hsame]
    exact h.reach
  · rw [hafter]
    exact h.reach.step trivial (if_pos hact)

end Steps

/-! ### The cluster -/

lemma scheduled_init (numHosts : ℤ) (ips : ℤ → Bytes) :
    Scheduled numHosts (fun _ => 0) ⟨.init ips, 0⟩ :=
  ⟨fun t ht => absurd ht.1 (Nat.not_lt_zero t), .init⟩

section Cluster

variable {numHosts : ℤ} {ips : ℤ → Bytes} {s s' : Sys} {l : SysAct}

/-- A guarded step of the cluster, seen from the scheduler. -/
lemma follows_sysStep
    (h : (clusterMachine numHosts lossless ips).Reach
      (OnMaster numHosts (CompletionGuard numHosts)) s) {asked : ℕ → ℤ}
    (hsched : Scheduled numHosts asked (s.ledger numHosts))
    (hg : OnMaster numHosts (CompletionGuard numHosts) s l)
    (hs : (clusterMachine numHosts lossless ips).step l s = some s') :
    ∃ asked', Scheduled numHosts asked' (s'.ledger numHosts) ∧
      Follows numHosts asked asked' (s.ledger numHosts) (s'.ledger numHosts) := by
  rcases ledger_sysStep (sysStep_spec hs) with hsame | ⟨a, ha, hstep⟩
  · rw [hsame]
    exact ⟨asked, hsched, .inl rfl⟩
  · obtain ⟨asked', hasks, hfollows⟩ := follows_step (exactly_of_reach (fun _ _ => id) h)
      (exclusive_of_reach (ledger_of_cluster h)) hsched (hg a ha) hstep
    exact ⟨asked', hsched.follow hasks hfollows, hfollows⟩

/-- The scheduler behind the cluster is in a state that it reaches. -/
lemma scheduled_of_reach
    (h : (clusterMachine numHosts lossless ips).Reach
      (OnMaster numHosts (CompletionGuard numHosts)) s) :
    ∃ asked, Scheduled numHosts asked (s.ledger numHosts) := by
  refine h.invariant (I := fun s => ∃ asked, Scheduled numHosts asked (s.ledger numHosts))
    ⟨fun _ => 0, ?_⟩ ?_
  · have hnone : (Sys.init ips).outstanding numHosts = 0 := by
      simp [Sys.outstanding, Sys.init, Node.dispatch, Node.unanswered, Node.init]
    show Scheduled numHosts _ ⟨.init ips, (Sys.init ips).outstanding numHosts⟩
    rw [hnone]
    exact scheduled_init numHosts ips
  · rintro s l s' hreach ⟨asked, hsched⟩ hg hs
    obtain ⟨asked', hsched', -⟩ := follows_sysStep hreach hsched hg hs
    exact ⟨asked', hsched'⟩

/-- **The cluster is a batch scheduler.** Along every run over a lossless network in which no
report of a job is handled while the pop thread holds it, every round of the dispatch loops
finds a FREE node, and no id is reused before its job is FINISHED, the scheduler behind the
cluster is in a state it reaches by its own steps, and every further step of the cluster that
meets the same conditions is a step of the scheduler or none. -/
theorem cluster_refines_batch
    (h : (clusterMachine numHosts lossless ips).Reach
      (OnMaster numHosts (CompletionGuard numHosts)) s) :
    ∃ asked, Scheduled numHosts asked (s.ledger numHosts) ∧
      ∀ l s', OnMaster numHosts (CompletionGuard numHosts) s l →
        (clusterMachine numHosts lossless ips).step l s = some s' →
        ∃ asked', Scheduled numHosts asked' (s'.ledger numHosts) ∧
          Follows numHosts asked asked' (s.ledger numHosts) (s'.ledger numHosts) := by
  obtain ⟨asked, hsched⟩ := scheduled_of_reach h
  exact ⟨asked, hsched, fun l s' hg hs => follows_sysStep h hsched hg hs⟩

end Cluster

/-- Node 1 is given its job, runs it and reports, and the job is FINISHED. -/
def runOne : List SysAct :=
  assignOne ++
    [.pop 0, .deliver (serverSingleJobSubmit serverMachineId 1 [97] 0 0) true 0,
      .node 1 .record, .node 1 .begin, .node 1 (.fork true), .node 1 (.procExit 0),
      .node 1 .join, .node 1 .sendReturn,
      .deliver (Node.jobReturn 1 ⟨0, 0, [97]⟩) true 0]

/-- The scheduler behind a cluster of one node that has run its job. -/
theorem cluster_refines_batch_one : ∃ s,
    (clusterMachine 1 lossless fun _ => []).Reach (OnMaster 1 (CompletionGuard 1)) s ∧
      (s.master.srv.jobq 0).jobStat = .finished ∧
      ∃ asked, Scheduled 1 asked (s.ledger 1) ∧
        ∀ l s', OnMaster 1 (CompletionGuard 1) s l →
          (clusterMachine 1 lossless fun _ => []).step l s = some s' →
          ∃ asked', Scheduled 1 asked' (s'.ledger 1) ∧
            Follows 1 asked asked' (s.ledger 1) (s'.ledger 1) := by
  have hrun : (((clusterMachine 1 lossless fun _ => []).restrict fun s l =>
      (l.masterAct 1).all fun a => decide (CompletionGuard 1 s.master a)).run runOne
        (.init fun _ => [])).any (fun s =>
          decide ((s.master.srv.jobq 0).jobStat = .finished)) = true := by
    decide +kernel
  obtain ⟨s, hs, hp⟩ := exists_reach_of_tested (CompletionGuard 1) hrun
  exact ⟨s, hs, of_decide_eq_true hp, cluster_refines_batch hs⟩

/-! ### What the clients are shown -/

section Shown

variable {numHosts : ℤ} {ips : ℤ → Bytes} {s : Sys}

/-- The status of a job of the scheduler. -/
def jobStatOf (b : Batch ℕ ℤ) (t : ℕ) : JobStat :=
  if t ∈ b.waiting then .inqueue
  else if t ∈ b.finished then .finished
  else if t ∈ b.submitted then .running
  else .unknow

/-- **FINISHED in the scheduler**: the job got the nodes it asked for, at least one, and none
of them works any more. -/
lemma jobStat_eq_finished_iff {b : Batch ℕ ℤ} (h : b.Sound numHosts) {t : ℕ} :
    jobStatOf b t = .finished ↔
      0 < b.given t ∧ b.given t = b.asked t ∧ b.placing ≠ some t ∧ ∀ p ∈ b.work, p.1 ≠ t := by
  have hstat : jobStatOf b t = .finished ↔ t ∈ b.finished := by
    rw [jobStatOf]
    split_ifs with hwait hfin
    · refine iff_of_false (fun hc => by cases hc) fun hfin => ?_
      exact ((h.finished t).mp hfin).1.ne' (h.fresh t (.inr hwait))
    · exact iff_of_true rfl hfin
    · exact iff_of_false (fun hc => by cases hc) hfin
    · exact iff_of_false (fun hc => by cases hc) hfin
  rw [hstat, h.finished t]
  constructor
  · rintro ⟨hpos, hplaced, hnone⟩
    exact ⟨hpos, (h.complete t hpos hplaced).1, hplaced, hnone⟩
  · rintro ⟨hpos, -, hplaced, hnone⟩
    exact ⟨hpos, hplaced, hnone⟩

/-- The status in the slot of a job is that of the scheduler. -/
lemma stat_eq_jobStat {L : Ledger} (h : Live L) (asked : ℕ → ℤ) {t : ℕ}
    (howns : L.master.Owns t) : (L.master.view t).stat = jobStatOf (L.batch asked) t := by
  have hok := h.ok t howns
  have hfin := mem_finished_batch asked L t
  have hwait : t ∈ (L.batch asked).waiting ↔ L.master.popped ≤ t := by
    refine List.mem_range'_1.trans ?_
    have := howns.1
    omega
  have hphase : (L.master.view t).phase = .queued ↔ L.master.popped ≤ t := by
    refine ⟨fun hq => by_contra fun hpopped => ?_, fun hpopped => if_pos hpopped⟩
    simp only [Master.view, if_neg hpopped, PopPc.phase] at hq
    split at hq
    · split_ifs at hq
    · split_ifs at hq
    · cases hq
    · cases hq
  have hsubmitted : t ∈ (L.batch asked).submitted := List.mem_range.mpr howns.1
  rw [jobStatOf]
  by_cases hdone : L.master.finished t = true
  · obtain ⟨hplaced, hstat, -⟩ := hok.of_finished hdone
    have hnot : ¬ L.master.popped ≤ t := by
      rw [← hphase, hplaced]
      exact fun hc => by cases hc
    rw [if_neg (hwait.not.mpr hnot), if_pos (hfin.mpr ⟨howns.1, hdone⟩), hstat]
  · rw [hok.stat_of_not_finished (Bool.not_eq_true _ ▸ hdone),
      if_neg fun hc => hdone (hfin.mp hc).2, if_pos hsubmitted]
    simp only [hphase, hwait]

/-- **Clients see the scheduler.** Along the same runs, a query for a job in its slot shows the
status of the job in the scheduler, and this is FINISHED exactly when the job was given as
many nodes as it asked for, at least one, and none of them works for it any more. -/
theorem shown_status_scheduled
    (h : (clusterMachine numHosts lossless ips).Reach
      (OnMaster numHosts (CompletionGuard numHosts)) s) :
    ∃ asked, Scheduled numHosts asked (s.ledger numHosts) ∧
      ∀ t, s.master.Owns t →
        (∀ q : QueryPath, shownFor (jobIdOf t) (queryJobs q (jobIdOf t).word s.master.srv)
          = some [(jobStatOf ((s.ledger numHosts).batch asked) t).code]) ∧
        (jobStatOf ((s.ledger numHosts).batch asked) t = .finished ↔
          0 < s.master.assigned t ∧
          s.master.assigned t = (s.master.srv.jobq (slotOf t)).numReqNodes ∧
          (∀ j, s.master.held ≠ some (j, t)) ∧ ∀ d ∈ s.outstanding numHosts, d.job ≠ t) := by
  obtain ⟨asked, hsched⟩ := scheduled_of_reach h
  have hlive := (exactly_of_reach (fun _ _ => id) h).live
  refine ⟨asked, hsched, fun t howns => ⟨fun q => ?_, ?_⟩⟩
  · have husage : Usage s.master := usage_of_reach (master_of_cluster (G := Machine.always)
      (h.mono fun _ _ _ _ _ => trivial))
    rw [shownFor_single, curJobStat_eq husage, ← stat_eq_jobStat hlive asked howns]
    rfl
  · -- FINISHED in the scheduler, in the words of the model: given, not in hand, no work left
    rw [jobStat_eq_finished_iff (Batch.sound_of_reach hsched.reach)]
    have hplacing : ((s.ledger numHosts).batch asked).placing ≠ some t ↔
        ∀ j, s.master.held ≠ some (j, t) := by
      rw [← not_exists_not]
      refine not_congr ?_
      simp only [not_not]
      refine Option.map_eq_some_iff.trans ?_
      constructor
      · rintro ⟨⟨j, t'⟩, hj, rfl⟩
        exact ⟨j, hj⟩
      · rintro ⟨j, hj⟩
        exact ⟨(j, t), hj, rfl⟩
    have hwork : (∀ p ∈ ((s.ledger numHosts).batch asked).work, p.1 ≠ t) ↔
        ∀ d ∈ s.outstanding numHosts, d.job ≠ t := by
      simp only [Ledger.batch, Multiset.mem_map, forall_exists_index, and_imp,
        forall_apply_eq_imp_iff₂]
      rfl
    rw [hplacing, hwork, show ((s.ledger numHosts).batch asked).asked t
      = (s.master.srv.jobq (slotOf t)).numReqNodes from hsched.asks t howns]
    rfl

end Shown

/-- The job of the node that has reported is shown FINISHED. -/
theorem shown_status_scheduled_one : ∃ s,
    (clusterMachine 1 lossless fun _ => []).Reach (OnMaster 1 (CompletionGuard 1)) s ∧
      s.master.Owns 0 ∧ (s.master.srv.jobq 0).jobStat = .finished ∧
      ∃ asked, Scheduled 1 asked (s.ledger 1) ∧
        ∀ t, s.master.Owns t →
          (∀ q : QueryPath, shownFor (jobIdOf t) (queryJobs q (jobIdOf t).word s.master.srv)
            = some [(jobStatOf ((s.ledger 1).batch asked) t).code]) ∧
          (jobStatOf ((s.ledger 1).batch asked) t = .finished ↔
            0 < s.master.assigned t ∧
            s.master.assigned t = (s.master.srv.jobq (slotOf t)).numReqNodes ∧
            (∀ j, s.master.held ≠ some (j, t)) ∧ ∀ d ∈ s.outstanding 1, d.job ≠ t) := by
  have hrun : (((clusterMachine 1 lossless fun _ => []).restrict fun s l =>
      (l.masterAct 1).all fun a => decide (CompletionGuard 1 s.master a)).run runOne
        (.init fun _ => [])).any (fun s =>
          decide ((s.master.srv.jobq 0).jobStat = .finished) && decide (s.master.accepted = 1))
        = true := by
    decide +kernel
  obtain ⟨s, hs, hp⟩ := exists_reach_of_tested (CompletionGuard 1) hrun
  rw [Bool.and_eq_true, decide_eq_true_eq, decide_eq_true_eq] at hp
  have howns : s.master.Owns 0 := by
    rw [Master.Owns, hp.2]
    decide
  exact ⟨s, hs, howns, hp.1, shown_status_scheduled hs⟩

end Epbs
