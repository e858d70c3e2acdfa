/-
The accounts of the cluster: what was sent is reported, under way or lost, and the counter
of a job is the number of nodes that work for it.

* `Master.sentTo`, `Master.heardFrom`: the submit messages and the FINISHED reports, by job
  and node, as multisets;
* `Balanced`: sent is heard, outstanding or lost; kept by every step of the ledger;
* `reports_conserved`: so it is along every run of the cluster, over any network: what is
  lost is what is late for ever;
* `busyWith`: the BUSY nodes whose record names an id;
* `counter_counts_busy`: they are the messages of the job in the slot without a report, and
  once the job is dispatched its counter is their number.
-/
import Epbs.Cluster.Delay
import Epbs.Cluster.Running

namespace Epbs

/-! ### Sent, heard, outstanding -/

/-- The job and the node of a submit message. -/
def Event.sentTo : Event → Option (ℕ × ℤ)
  | .assigned job node => some (job, node)
  | _ => none

/-- The job and the node of a FINISHED report. -/
def Event.heardFrom : Event → Option (ℕ × ℤ)
  | .handled job node => some (job, node)
  | _ => none

/-- The submit messages sent so far. -/
def Master.sentTo (m : Master) : Multiset (ℕ × ℤ) := m.log.filterMap Event.sentTo

/-- The FINISHED reports handled so far. -/
def Master.heardFrom (m : Master) : Multiset (ℕ × ℤ) := m.log.filterMap Event.heardFrom

/-- The job and the node of a dispatch. -/
def Dispatch.target (d : Dispatch) : ℕ × ℤ := (d.job, d.node)

/-- Everything sent was heard, is outstanding, or is lost. -/
def Balanced (L : Ledger) (lost : Multiset (ℕ × ℤ)) : Prop :=
  L.master.sentTo = L.master.heardFrom + L.out.map Dispatch.target + lost

namespace Balanced

variable {L L' : Ledger} {lost : Multiset (ℕ × ℤ)}

/-- A step with no message and no report. -/
lemma of_same (h : Balanced L lost) (hsent : L'.master.sentTo = L.master.sentTo)
    (hheard : L'.master.heardFrom = L.master.heardFrom) (hout : L'.out = L.out) :
    Balanced L' lost := by
  rw [Balanced, hsent, hheard, hout]
  exact h

/-- A submit message is outstanding at first. -/
lemma assign (h : Balanced L lost) {d : Dispatch}
    (hsent : L'.master.sentTo = d.target ::ₘ L.master.sentTo)
    (hheard : L'.master.heardFrom = L.master.heardFrom) (hout : L'.out = d ::ₘ L.out) :
    Balanced L' lost := by
  rw [Balanced] at h
  rw [Balanced, hsent, hheard, hout, h, Multiset.map_cons, Multiset.add_cons,
    Multiset.cons_add]

/-- A report is heard instead of outstanding. -/
lemma report (h : Balanced L lost) {d : Dispatch} (hd : d ∈ L.out)
    (hsent : L'.master.sentTo = L.master.sentTo)
    (hheard : L'.master.heardFrom = d.target ::ₘ L.master.heardFrom)
    (hout : L'.out = L.out.erase d) : Balanced L' lost := by
  rw [Balanced, ← Multiset.cons_erase hd, Multiset.map_cons, Multiset.add_cons] at h
  rw [Balanced, hsent, hheard, hout, h, Multiset.cons_add, Multiset.cons_add, Multiset.cons_add]

/-- **One step of the ledger** keeps the balance: a dispatch is sent once, and goes from the
outstanding ones to those heard of. -/
lemma step (h : Balanced L lost) {numHosts : ℤ} {a : MasterAct}
    (hstep : L.step numHosts a = some L') : Balanced L' lost := by
  obtain ⟨ps, hm, hans, hout⟩ := ledgerStep_spec hstep
  obtain ⟨m', out'⟩ := L'
  dsimp only at hm hout
  subst hout
  cases hm with
  | submit req now pcomm username => exact h.of_same rfl rfl (add_zero _)
  | cancel jobId hhosts =>
      refine h.of_same ?_ ?_ ?_
      · simp [Master.sentTo, List.filterMap_map, Function.comp_def, Event.sentTo]
      · simp [Master.heardFrom, List.filterMap_map, Function.comp_def, Event.heardFrom]
      · simp [outAfter, List.filterMap_map, Function.comp_def]
  | pop now hpop =>
      cases hpop with
      | @assign j job i k hpc hi hk hin hfree =>
          refine h.assign (d := ⟨job, k, j.jobId⟩) rfl rfl ?_
          exact (add_comm _ _).trans (Multiset.singleton_add ..)
      | _ => exact h.of_same rfl rfl (add_zero _)
  | other msg job now hm2 => exact h.of_same rfl rfl (if_neg hm2)
  | report msg job now hm2 hsrc hjob hmore =>
      exact h.report (hans hm2) rfl rfl (if_pos hm2)
  | lastReport msg job now hm2 hsrc hjob hlast =>
      exact h.report (hans hm2) rfl rfl (if_pos hm2)
  | hostStatus msg job => exact h.of_same rfl rfl (add_zero _)

end Balanced

lemma balanced_init (ips : ℤ → Bytes) : Balanced ⟨.init ips, 0⟩ 0 := rfl

/-! ### The cluster -/

/-- **No report is invented, and none is counted twice.** Along every run of the cluster and
over any network, the submit messages sent, by job and node, are the FINISHED reports
handled, the dispatches under way and some that were lost; over a network that keeps every
packet nothing is lost. -/
theorem reports_conserved {numHosts : ℤ} {accepts : Network} {ips : ℤ → Bytes} {s : Sys}
    (h : (clusterMachine numHosts accepts ips).Reach Machine.always s) :
    ∃ lost : Multiset (ℕ × ℤ),
      s.master.sentTo = s.master.heardFrom + (s.outstanding numHosts).map Dispatch.target + lost ∧
      (accepts = lossless → lost = 0) := by
  have hbal : ∀ {u : Sys}, (clusterMachine numHosts lossless ips).Reach
      (OnMaster numHosts fun _ _ => True) u → Balanced (u.ledger numHosts) 0 := fun hu =>
    (ledger_of_cluster hu).invariant (I := fun L => Balanced L 0) (balanced_init ips)
      fun _ _ _ _ hL _ hs => hL.step hs
  have hguard : (clusterMachine numHosts accepts ips).Reach (OnMaster numHosts fun _ _ => True) s :=
    h.mono fun _ _ _ _ _ => trivial
  by_cases hall : accepts = lossless
  · subst hall
    exact ⟨0, hbal hguard, fun _ => rfl⟩
  · -- what is lost is what is late for ever
    obtain ⟨t, ht, hdelay⟩ := exists_delayed hguard
    obtain ⟨late, hlate⟩ := Multiset.le_iff_exists_add.mp (hdelay.outstanding_le numHosts)
    have hsent : t.master.sentTo
        = t.master.heardFrom + (t.outstanding numHosts).map Dispatch.target + 0 := hbal ht
    refine ⟨late.map Dispatch.target, ?_, fun heq => absurd heq hall⟩
    rw [hdelay.master, hlate, Multiset.map_add, add_zero, ← add_assoc] at hsent
    exact hsent

/-- A job sent to the node of a cluster without a network is lost. -/
theorem reports_conserved_dropped : ∃ s,
    (clusterMachine 1 (fun _ _ => false) fun _ => []).Reach Machine.always s ∧
      s.master.sentTo = {(0, 1)} ∧ ∃ lost : Multiset (ℕ × ℤ),
        s.master.sentTo = s.master.heardFrom + (s.outstanding 1).map Dispatch.target + lost := by
  have hrun : ((clusterMachine 1 (fun _ _ => false) fun _ => []).run assignOne
      (clusterMachine 1 (fun _ _ => false) fun _ => []).init).any
        (fun s => decide (s.master.log.filterMap Event.sentTo = [(0, 1)])) = true := by
    decide +kernel
  obtain ⟨s, hs, hsent⟩ := Machine.exists_reach_of_run hrun
  obtain ⟨lost, hlost, -⟩ := reports_conserved hs
  exact ⟨s, hs, congrArg _ (of_decide_eq_true hsent), lost, hlost⟩

/-! ### Counters and nodes -/

/-- The BUSY nodes whose record names the id. -/
def busyWith (numHosts : ℤ) (s : Server) (jobId : ℤ) : List ℤ :=
  (hostIds numHosts).filter fun k => s.pcstat k = .busy ∧ s.nodesstat k = jobId

/-- The nodes with an outstanding dispatch of a job. -/
def nodesOf (out : Multiset Dispatch) (t : ℕ) : Multiset ℤ :=
  (out.filter fun d => d.job = t).map Dispatch.node

/-- A node is among them at most once, if it has at most one dispatch. -/
lemma nodup_nodesOf {L : Ledger} (h : Exclusive L) (t : ℕ) : (nodesOf L.out t).Nodup := by
  refine Multiset.nodup_iff_count_le_one.mpr fun k => ?_
  have hbusy := h.busy k
  have hle : (nodesOf L.out t).count k ≤ dispatchesTo L.out k := by
    rw [nodesOf, Multiset.count_map, ← Multiset.countP_eq_card_filter, dispatchesTo]
    refine (Multiset.countP_le_of_le _ (Multiset.filter_le _ _)).trans (le_of_eq ?_)
    exact Multiset.countP_congr rfl fun d _ => propext eq_comm
  split_ifs at hbusy <;> omega

/-- **The nodes of a job** are the BUSY nodes whose record names its id. -/
lemma nodesOf_eq_busyWith {numHosts : ℤ} {L : Ledger} (hlive : Live L) (hexcl : Exclusive L)
    (hhosts : InHosts numHosts L) {t : ℕ} (howns : L.master.Owns t) :
    nodesOf L.out t = (busyWith numHosts L.master.srv (slotOf t) : Multiset ℤ) := by
  have hnodup : (busyWith numHosts L.master.srv (slotOf t)).Nodup :=
    (nodup_hostIds numHosts).filter _
  refine (Multiset.Nodup.ext (nodup_nodesOf hexcl t) (Multiset.coe_nodup.mpr hnodup)).mpr
    fun k => ?_
  rw [Multiset.mem_coe, busyWith, List.mem_filter, mem_hostIds, decide_eq_true_eq, nodesOf,
    Multiset.mem_map]
  constructor
  · rintro ⟨d, hd, rfl⟩
    obtain ⟨hmem, rfl⟩ := Multiset.mem_filter.mp hd
    refine ⟨hhosts.hosts d hmem, ?_, ?_⟩
    · by_contra hidle
      have hnone := hexcl.busy d.node
      rw [if_neg hidle] at hnone
      have hone : 0 < dispatchesTo L.out d.node := Multiset.countP_pos.mpr ⟨d, hmem, rfl⟩
      omega
    · rw [hexcl.record d hmem, (hlive.tallied.ids d hmem).2]
  · rintro ⟨-, hbusy, hrecord⟩
    have hone := hexcl.busy k
    rw [if_pos hbusy] at hone
    obtain ⟨d, hmem, rfl⟩ :=
      Multiset.countP_pos.mp (by rw [← dispatchesTo, hone]; exact one_pos)
    refine ⟨d, Multiset.mem_filter.mpr ⟨hmem, ?_⟩, rfl⟩
    -- the record names the slot, and only this job owns it
    rw [hexcl.record d hmem, (hlive.tallied.ids d hmem).2] at hrecord
    exact (hlive.of_mem hmem).1.eq_of_slotOf_eq howns hrecord

/-- The accounts of a job: its messages are answered, or a node is BUSY with it, and once it
is dispatched its counter is the number of these nodes. -/
structure Accounted (numHosts : ℤ) (m : Master) (t : ℕ) : Prop where
  nodes : m.assigned t = m.handled t + (busyWith numHosts m.srv (slotOf t)).length
  counter : Placeable numHosts (m.srv.jobq (slotOf t)).numReqNodes → m.Dispatched t →
    m.srv.jobnodes (slotOf t) = (busyWith numHosts m.srv (slotOf t)).length

/-- The accounts of a job over a lossless network. -/
lemma accounted_of_reach {numHosts : ℤ} {ips : ℤ → Bytes} {s : Sys}
    (h : (clusterMachine numHosts lossless ips).Reach
      (OnMaster numHosts (CompletionGuard numHosts)) s)
    {t : ℕ} (howns : s.master.Owns t) : Accounted numHosts s.master t := by
  have hexact := exactly_of_reach (fun _ _ => id) h
  have hled := ledger_of_cluster h
  have hcard := congrArg Multiset.card (nodesOf_eq_busyWith hexact.live (exclusive_of_reach hled)
    (inHosts_of_reach hled) howns)
  have htally := hexact.live.tallied.tally t
  have hnodes : s.master.assigned t
      = s.master.handled t + (busyWith numHosts s.master.srv (slotOf t)).length := by
    rw [nodesOf, Multiset.card_map, ← Multiset.countP_eq_card_filter, ← dispatchesOf] at hcard
    exact htally.trans (congrArg _ hcard)
  refine ⟨hnodes, fun hneed hdisp => ?_⟩
  have hphase := Exactly.phase_eq_placed_iff.mpr hdisp
  have hview := hexact.exact t howns
  have hok := hexact.live.ok t howns
  simp only [JobView.Exact, Sys.ledger, hphase] at hview
  obtain ⟨hsent, hcount⟩ := hview hneed.1 hneed.2
  by_cases hfin : s.master.finished t = true
  · obtain ⟨-, -, hzero, hheard⟩ := hok.of_finished hfin
    simp only [Master.view, Sys.ledger] at hzero hheard
    omega
  · obtain ⟨hcounter, -⟩ := hcount (Bool.not_eq_true _ ▸ hfin)
    simp only [Master.view] at hcounter hsent
    omega

/-- **The counter of a job is the number of nodes that work for it**, along all runs, over any
network, in which no report of a job is handled while the pop thread holds it, every round of
the dispatch loops finds a FREE node, and no id is reused before its job is FINISHED. -/
theorem counter_counts_busy {numHosts : ℤ} {accepts : Network} {ips : ℤ → Bytes} {s : Sys}
    (h : (clusterMachine numHosts accepts ips).Reach
      (OnMaster numHosts (CompletionGuard numHosts)) s)
    {t : ℕ} (howns : s.master.Owns t) : Accounted numHosts s.master t := by
  obtain ⟨u, hu, hdelay⟩ := exists_delayed h
  rw [← hdelay.master] at howns ⊢
  exact accounted_of_reach hu howns

/-- The round of the dispatch loops, and the node it stands at. -/
def PopPc.round : PopPc → Option (PoppedJob × ℤ × ℤ)
  | .dispatch j _ i k => some (j, i, k)
  | .start | .idle | .wait _ _ _ _ => none

lemma all_round_iff {pc : PopPc} {p : PoppedJob × ℤ × ℤ → Bool} :
    pc.round.all p = true ↔ ∀ j t i k, pc = .dispatch j t i k → p (j, i, k) = true := by
  cases pc with
  | dispatch j t i k =>
      refine ⟨fun h j' t' i' k' heq => ?_, fun h => h j t i k rfl⟩
      cases heq
      exact h
  | _ => exact ⟨fun _ => nofun, fun _ => rfl⟩

lemma rounds_in_range_iff {numHosts : ℤ} {m : Master} :
    m.pop.round.all (fun r => decide (r.2.1 ≤ r.1.numReqNodes → r.2.2 ≤ numHosts)) = true ↔
      ∀ j t i k, m.pop = .dispatch j t i k → i ≤ j.numReqNodes → k ≤ numHosts := by
  simp only [all_round_iff, decide_eq_true_eq]

lemma not_held_iff {m : Master} {job : ℕ} :
    m.held.all (fun h => decide (h.2 ≠ job)) = true ↔ ∀ j, m.held ≠ some (j, job) := by
  rw [Option.all_eq_true]
  constructor
  · intro h j hheld
    exact of_decide_eq_true (h (j, job) hheld) rfl
  · rintro h ⟨j, t⟩ hheld
    exact decide_eq_true fun heq => h j (heq ▸ hheld)

instance (numHosts : ℤ) (m : Master) :
    (a : MasterAct) → Decidable (CompletionGuard numHosts m a)
  | .submit req now => inferInstanceAs (Decidable (FreshSlots m (.submit req now)))
  | .pop _ => decidable_of_iff (m.CommandCopies ∧ _) (and_congr_right fun _ => rounds_in_range_iff)
  | .result _ _ _ => decidable_of_iff _ not_held_iff
  | .cancel _ | .hostStatus _ _ => isTrue trivial

/-- The node of a running job is the one in its counter. -/
theorem counter_counts_busy_one : ∃ s,
    (clusterMachine 1 lossless fun _ => []).Reach (OnMaster 1 (CompletionGuard 1)) s ∧
      busyWith 1 s.master.srv 0 = [1] ∧ Accounted 1 s.master 0 := by
  have hrun : (((clusterMachine 1 lossless fun _ => []).restrict fun s l =>
      (l.masterAct 1).all fun a => decide (CompletionGuard 1 s.master a)).run
        (assignOne ++ [.pop 0]) (.init fun _ => [])).any (fun s =>
          decide (busyWith 1 s.master.srv 0 = [1]) && decide (s.master.accepted = 1)) = true := by
    decide +kernel
  obtain ⟨s, hs, hp⟩ := exists_reach_of_tested (CompletionGuard 1) hrun
  rw [Bool.and_eq_true, decide_eq_true_eq, decide_eq_true_eq] at hp
  have howns : s.master.Owns 0 := by
    rw [Master.Owns, hp.2]
    decide
  exact ⟨s, hs, hp.1, counter_counts_busy hs howns⟩

end Epbs
