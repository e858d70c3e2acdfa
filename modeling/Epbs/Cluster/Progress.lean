/-
What becomes of the job in hand: rounds of the dispatch loops that find their nodes, and how
soon the pop thread is done.

* `freeFrom`: the number of FREE nodes from one node on; only the pop thread takes one;
* `Supplied`: as many FREE nodes ahead as messages still to send; kept whatever the other
  threads do, so that a round never runs past the last node;
* `rounds_supplied`: that holds along every run in which the waiting loop is left only with
  enough FREE nodes;
* `PopPc.left`, `InHand`: a bound on the steps to come, and what is known of the job until
  then;
* `placed_within`: once enough nodes are FREE the job is sent to all of its nodes after that
  many steps of the pop thread, in every interleaving.
-/
import Epbs.Cluster.Order

namespace Epbs

/-! ### FREE nodes ahead -/

/-- The number of FREE nodes from the node `k` on. -/
def freeFrom (numHosts : ℤ) (pcstat : ℤ → HostStat) (k : ℤ) : ℕ :=
  ((freeNodes numHosts pcstat).filter fun i => k ≤ i).length

section FreeFrom

variable {numHosts k : ℤ} {pcstat pcstat' : ℤ → HostStat}

/-- From the first node on these are the FREE nodes. -/
lemma freeFrom_one (numHosts : ℤ) (pcstat : ℤ → HostStat) :
    freeFrom numHosts pcstat 1 = (freeNodes numHosts pcstat).length := by
  rw [freeFrom, List.filter_eq_self.mpr]
  intro i hi
  exact decide_eq_true (mem_hostIds.mp (List.mem_filter.mp hi).1).1

/-- The FREE nodes from a node on as a set. -/
lemma freeFrom_eq_card (hk : 1 ≤ k) :
    freeFrom numHosts pcstat k
      = ((Finset.Icc k numHosts).filter fun i => pcstat i = .free).card := by
  rw [freeFrom, ← List.toFinset_card_of_nodup ((nodup_freeNodes numHosts pcstat).filter _)]
  congr 1
  ext i
  simp only [freeNodes, List.mem_toFinset, List.mem_filter, mem_hostIds, decide_eq_true_eq,
    Finset.mem_filter, Finset.mem_Icc]
  constructor
  · rintro ⟨⟨⟨-, hhigh⟩, hfree⟩, hlow⟩
    exact ⟨⟨hlow, hhigh⟩, hfree⟩
  · rintro ⟨⟨hlow, hhigh⟩, hfree⟩
    exact ⟨⟨⟨hk.trans hlow, hhigh⟩, hfree⟩, hlow⟩

/-- Past the last node there is none. -/
lemma freeFrom_of_lt (hk : 1 ≤ k) (h : numHosts < k) : freeFrom numHosts pcstat k = 0 := by
  rw [freeFrom_eq_card hk, Finset.Icc_eq_empty (not_le.mpr h), Finset.filter_empty,
    Finset.card_empty]

/-- The FREE nodes from a node on are those behind it, and the node itself. -/
lemma freeFrom_of_le (hk : 1 ≤ k) (h : k ≤ numHosts) :
    freeFrom numHosts pcstat k
      = freeFrom numHosts pcstat (k + 1) + if pcstat k = .free then 1 else 0 := by
  rw [freeFrom_eq_card hk, freeFrom_eq_card (by omega),
    ← Finset.insert_Icc_add_one_left_eq_Icc h, Finset.filter_insert]
  split_ifs with hfree
  · rw [Finset.card_insert_of_notMem]
    intro hmem
    have hk := (Finset.mem_Icc.mp (Finset.mem_filter.mp hmem).1).1
    omega
  · rw [add_zero]

/-- Nodes that become FREE are counted in addition. -/
lemma freeFrom_mono (numHosts : ℤ) (hk : 1 ≤ k)
    (h : ∀ i, pcstat i = .free → pcstat' i = .free) :
    freeFrom numHosts pcstat k ≤ freeFrom numHosts pcstat' k := by
  rw [freeFrom_eq_card hk, freeFrom_eq_card hk]
  refine Finset.card_le_card fun i hi => ?_
  obtain ⟨hmem, hfree⟩ := Finset.mem_filter.mp hi
  exact Finset.mem_filter.mpr ⟨hmem, h i hfree⟩

/-- An assignment takes one node. -/
lemma freeFrom_assign (hk : 1 ≤ k) (i : ℤ) :
    freeFrom numHosts pcstat k
      ≤ freeFrom numHosts (Function.update pcstat i .busy) 1 + 1 := by
  rw [freeFrom_eq_card hk, freeFrom_eq_card le_rfl]
  refine (Finset.card_le_card (t := insert i ((Finset.Icc 1 numHosts).filter fun l =>
    Function.update pcstat i .busy l = .free)) fun l hl => ?_).trans (Finset.card_insert_le _ _)
  obtain ⟨hmem, hfree⟩ := Finset.mem_filter.mp hl
  obtain ⟨hlow, hhigh⟩ := Finset.mem_Icc.mp hmem
  by_cases heq : l = i
  · exact heq ▸ Finset.mem_insert_self ..
  · refine Finset.mem_insert_of_mem (Finset.mem_filter.mpr ⟨?_, ?_⟩)
    · exact Finset.mem_Icc.mpr ⟨hk.trans hlow, hhigh⟩
    · rw [Function.update_of_ne heq]
      exact hfree

/-- A FREE node that is counted lies ahead. -/
lemma exists_of_freeFrom (hk : 1 ≤ k) (h : 0 < freeFrom numHosts pcstat k) :
    ∃ i, k ≤ i ∧ i ≤ numHosts ∧ pcstat i = .free := by
  rw [freeFrom_eq_card hk] at h
  obtain ⟨i, hi⟩ := Finset.card_pos.mp h
  obtain ⟨hmem, hfree⟩ := Finset.mem_filter.mp hi
  obtain ⟨hlow, hhigh⟩ := Finset.mem_Icc.mp hmem
  exact ⟨i, hlow, hhigh, hfree⟩

end FreeFrom

/-- A step of another thread: the pop thread stays where it is, no job is sent, and no FREE
node is taken. -/
lemma masterStep_aside {numHosts : ℤ} {m m' : Master} {a : MasterAct} {ps : List Packet}
    (h : MasterStep numHosts m a m' ps) (ha : ∀ now, a ≠ .pop now) :
    m'.pop = m.pop ∧ (∀ t, m'.assigned t = m.assigned t) ∧
      ∀ i, m.srv.pcstat i = .free → m'.srv.pcstat i = .free := by
  have hrelease : ∀ src i, m.srv.pcstat i = .free →
      Function.update m.srv.pcstat src .free i = .free := by
    intro src i hfree
    rw [Function.update_apply]
    split_ifs
    · rfl
    · exact hfree
  cases h with
  | submit req now pcomm username => exact ⟨rfl, fun _ => rfl, fun _ => id⟩
  | cancel jobId hhosts =>
      refine ⟨rfl, fun t => ?_, fun _ => id⟩
      simp [Master.assigned, List.countP_map, Function.comp_def, Event.isAssigned]
  | pop now hpop => exact absurd rfl (ha now)
  | other msg job now hm2 => exact ⟨rfl, fun _ => rfl, fun _ => id⟩
  | report msg job now hm2 hsrc hjob hmore =>
      exact ⟨rfl, fun t => by simp [Master.assigned, Event.isAssigned], hrelease msg.src⟩
  | lastReport msg job now hm2 hsrc hjob hlast =>
      exact ⟨rfl, fun t => by simp [Master.assigned, Event.isAssigned], hrelease msg.src⟩
  | hostStatus msg job =>
      exact ⟨rfl, fun t => by simp [Master.assigned, Event.isAssigned], fun _ => id⟩

/-! ### Rounds that find a node -/

/-- At the node `k` in the round `i` of a job for `need` nodes: as many FREE nodes ahead as
there are rounds to come. -/
structure Supplied (numHosts need i k : ℤ) (pcstat : ℤ → HostStat) : Prop where
  node : 1 ≤ k
  round : i = 1 ∨ (1 ≤ i ∧ i ≤ need + 1)
  ahead : need + 1 ≤ i + freeFrom numHosts pcstat k

namespace Supplied

variable {numHosts need i k : ℤ} {pcstat pcstat' : ℤ → HostStat}

/-- Enough FREE nodes when the dispatch begins. -/
lemma start (h : need ≤ freeFrom numHosts pcstat 1) : Supplied numHosts need 1 1 pcstat :=
  ⟨le_rfl, .inl rfl, by omega⟩

/-- A round that is not over has a FREE node ahead. -/
lemma exists_free (h : Supplied numHosts need i k pcstat) (hi : i ≤ need) :
    ∃ k', k ≤ k' ∧ k' ≤ numHosts ∧ pcstat k' = .free := by
  have hahead := h.ahead
  exact exists_of_freeFrom h.node (by omega)

/-- No round runs past the last node. -/
lemma le_numHosts (h : Supplied numHosts need i k pcstat) (hi : i ≤ need) : k ≤ numHosts := by
  obtain ⟨k', hlow, hhigh, -⟩ := h.exists_free hi
  exact hlow.trans hhigh

/-- Nodes that become FREE do no harm. -/
lemma mono (h : Supplied numHosts need i k pcstat)
    (hfree : ∀ l, pcstat l = .free → pcstat' l = .free) :
    Supplied numHosts need i k pcstat' := by
  have hahead := h.ahead
  have hmore : freeFrom numHosts pcstat k ≤ freeFrom numHosts pcstat' k :=
    freeFrom_mono numHosts h.node hfree
  exact ⟨h.node, h.round, by omega⟩

/-- A node that is not FREE is passed. -/
lemma next (h : Supplied numHosts need i k pcstat) (hi : i ≤ need) (hbusy : pcstat k ≠ .free) :
    Supplied numHosts need i (k + 1) pcstat := by
  have hahead := h.ahead
  have hnode := h.node
  rw [freeFrom_of_le hnode (h.le_numHosts hi), if_neg hbusy, add_zero] at hahead
  exact ⟨by omega, h.round, hahead⟩

/-- A FREE node is taken, and the next round begins. -/
lemma assign (h : Supplied numHosts need i k pcstat) (hi : i ≤ need) :
    Supplied numHosts need (i + 1) 1 (Function.update pcstat k .busy) := by
  have hahead := h.ahead
  have htaken : freeFrom numHosts pcstat k ≤
      freeFrom numHosts (Function.update pcstat k .busy) 1 + 1 := freeFrom_assign h.node k
  have hround := h.round
  exact ⟨le_rfl, by omega, by omega⟩

end Supplied

/-- A scan that ends with a large enough count has enough FREE nodes behind it. -/
def PopPc.LeavesWithEnough (numHosts : ℤ) (pcstat : ℤ → HostStat) : PopPc → Prop
  | .wait j _ count i => numHosts < i → j.numReqNodes ≤ count →
      j.numReqNodes ≤ (freeNodes numHosts pcstat).length
  | _ => True

instance (numHosts : ℤ) (pcstat : ℤ → HostStat) :
    (pc : PopPc) → Decidable (pc.LeavesWithEnough numHosts pcstat)
  | .wait _ _ _ _ => inferInstanceAs (Decidable (_ → _ → _))
  | .start | .idle | .dispatch _ _ _ _ => isTrue trivial

/-- The waiting loop is left only with enough FREE nodes. -/
def LeavesWithEnough (numHosts : ℤ) (m : Master) : MasterAct → Prop
  | .pop _ => m.pop.LeavesWithEnough numHosts m.srv.pcstat
  | _ => True

instance (numHosts : ℤ) (m : Master) :
    (a : MasterAct) → Decidable (LeavesWithEnough numHosts m a)
  | .pop _ => inferInstanceAs (Decidable (PopPc.LeavesWithEnough _ _ _))
  | .submit _ _ | .cancel _ | .result _ _ _ | .hostStatus _ _ => isTrue trivial

/-- The guard of the runs whose rounds find their nodes. -/
def SupplyGuard (numHosts : ℤ) (m : Master) (a : MasterAct) : Prop :=
  QueueHasRoom m a ∧ LeavesWithEnough numHosts m a

instance (numHosts : ℤ) (m : Master) (a : MasterAct) : Decidable (SupplyGuard numHosts m a) :=
  inferInstanceAs (Decidable (_ ∧ _))

/-- A job in the dispatch loops has its nodes ahead, and was sent once a round. -/
structure RoundsSupplied (numHosts : ℤ) (m : Master) : Prop where
  inOrder : TakenInOrder m
  supplied : ∀ j t i k, m.pop = .dispatch j t i k →
    Supplied numHosts j.numReqNodes i k m.srv.pcstat ∧ (m.assigned t : ℤ) + 1 = i

/-- The number of submit messages of a job that does not occur among the jobs sent. -/
lemma assigned_eq_zero {m : Master} {t : ℕ} (h : t ∉ m.dispatched) : m.assigned t = 0 := by
  rw [Master.assigned, List.countP_eq_zero]
  intro e he hsent
  refine h (List.mem_filterMap.mpr ⟨e, he, ?_⟩)
  cases e <;> simp only [Event.isAssigned, decide_eq_true_eq, Bool.false_eq_true] at hsent
  exact congrArg some hsent

namespace RoundsSupplied

variable {numHosts : ℤ} {m m' : Master}

/-- A step of the pop thread: the guard speaks where the scan has counted enough nodes, and
the rounds after it only use up what was counted. -/
lemma popStep (h : RoundsSupplied numHosts m) (hord : TakenInOrder m') {now : ℤ}
    {ps : List Packet} (hg : LeavesWithEnough numHosts m (.pop now))
    (hstep : PopStep numHosts now m m' ps) :
    RoundsSupplied numHosts m' := by
  refine ⟨hord, ?_⟩
  cases hstep with
  | init | take | skip | scan | again | finish => exact nofun
  | empty => exact h.supplied
  | @enough j t count i hpc hi hcount =>
      intro j' t' i' k' hj
      cases hj
      have hzero := assigned_eq_zero (h.inOrder.fresh j t count i hpc)
      -- the first round starts at host 1, and nothing of this ticket was sent before
      refine ⟨.start ?_, ?_⟩
      · rw [freeFrom_one]
        rw [LeavesWithEnough, hpc] at hg
        exact_mod_cast hg hi hcount
      · show ((m.assigned t : ℕ) : ℤ) + 1 = 1
        rw [hzero]
        rfl
  | assign hpc hi hk hin hfree =>
      obtain ⟨hsupplied, hsent⟩ := h.supplied _ _ _ _ hpc
      intro j' t' i' k' hj
      cases hj
      refine ⟨hsupplied.assign hi, ?_⟩
      rw [Master.assigned, countP_isAssigned_cons, if_pos rfl]
      rw [Master.assigned] at hsent
      push_cast
      omega
  | next hpc hi hk hbusy =>
      obtain ⟨hsupplied, hsent⟩ := h.supplied _ _ _ _ hpc
      intro j' t' i' k' hj
      cases hj
      exact ⟨hsupplied.next hi hbusy, hsent⟩
  | giveUp hpc hi hk =>
      obtain ⟨hsupplied, -⟩ := h.supplied _ _ _ _ hpc
      exact absurd (hsupplied.le_numHosts hi) (not_le.mpr hk)

/-- **One guarded step of the master** leaves every round its node. -/
lemma step (h : RoundsSupplied numHosts m) {a : MasterAct} {ps : List Packet}
    (hg : SupplyGuard numHosts m a) (hstep : MasterStep numHosts m a m' ps) :
    RoundsSupplied numHosts m' := by
  have hord := h.inOrder.step hg.1 hstep
  by_cases ha : ∃ now, a = .pop now
  · obtain ⟨now, rfl⟩ := ha
    cases hstep with
    | pop _ hpop => exact h.popStep hord hg.2 hpop
  · obtain ⟨hpop, hsent, hfree⟩ := masterStep_aside hstep fun now heq => ha ⟨now, heq⟩
    refine ⟨hord, fun j t i k hpc => ?_⟩
    obtain ⟨hsupplied, hcount⟩ := h.supplied j t i k (hpop ▸ hpc)
    exact ⟨hsupplied.mono hfree, by rw [hsent]; exact hcount⟩

end RoundsSupplied

/-- **Every round finds its node.** Along every run in which SUBMITs find room and the waiting
loop is left only with enough FREE nodes, and over any network: a job in the dispatch loops
was sent once for each round done, and in a round that is not over a FREE node is still
ahead. -/
theorem rounds_supplied {numHosts : ℤ} {accepts : Network} {ips : ℤ → Bytes} {s : Sys}
    (h : (clusterMachine numHosts accepts ips).Reach
      (OnMaster numHosts (SupplyGuard numHosts)) s)
    {j : PoppedJob} {t : ℕ} {i k : ℤ} (hpc : s.master.pop = .dispatch j t i k) :
    (s.master.assigned t : ℤ) + 1 = i ∧ (i = 1 ∨ i ≤ j.numReqNodes + 1) ∧
      (i ≤ j.numReqNodes →
        ∃ k', k ≤ k' ∧ k' ≤ numHosts ∧ s.master.srv.pcstat k' = .free) := by
  have hinv : RoundsSupplied numHosts s.master :=
    cluster_invariant ⟨takenInOrder_init ips, nofun⟩ (fun _ _ _ _ hI hg hs => hI.step hg hs) h
  obtain ⟨hsupplied, hsent⟩ := hinv.supplied j t i k hpc
  exact ⟨hsent, hsupplied.round.imp_right And.right, hsupplied.exists_free⟩

/-- A job for one node, taken by the pop thread. -/
def takeOne : List SysAct := [submitOne, .pop 0, .pop 0]

/-- In the only round of a job for one node the node is ahead. -/
theorem rounds_supplied_one : ∃ s j k,
    (clusterMachine 1 lossless fun _ => []).Reach (OnMaster 1 (SupplyGuard 1)) s ∧
      s.master.pop = .dispatch j 0 1 k ∧ j.numReqNodes = 1 ∧ s.master.assigned 0 = 0 ∧
      ∃ k', k ≤ k' ∧ k' ≤ 1 ∧ s.master.srv.pcstat k' = .free := by
  have hrun : (((clusterMachine 1 lossless fun _ => []).restrict fun s l =>
      (l.masterAct 1).all fun a => decide (SupplyGuard 1 s.master a)).run
        (takeOne ++ [.pop 0, .pop 0]) (.init fun _ => [])).any (fun s =>
          match s.master.pop with
          | .dispatch j t i _ => decide (j.numReqNodes = 1 ∧ t = 0 ∧ i = 1)
          | _ => false) = true := by
    decide +kernel
  obtain ⟨s, hs, hp⟩ := exists_reach_of_tested (SupplyGuard 1) hrun
  cases hpc : s.master.pop with
  | dispatch j t i k =>
      simp only [hpc, decide_eq_true_eq] at hp
      obtain ⟨hneed, rfl, rfl⟩ := hp
      obtain ⟨hsent, -, hahead⟩ := rounds_supplied hs hpc
      exact ⟨s, j, k, hs, hpc, hneed, by omega, hahead hneed.ge⟩
  | _ => simp [hpc] at hp

/-! ### How soon the pop thread is done -/

/-- The steps of the dispatch loops for a job that asks for `need` nodes. -/
def dispatchSteps (numHosts need : ℤ) : ℕ := need.toNat * numHosts.toNat + 1

/-- A bound on the steps the pop thread still takes with the job in hand: to the end of the
scan, through one more scan if this one comes short, and through the dispatch loops. -/
def PopPc.left (numHosts : ℤ) (pcstat : ℤ → HostStat) : PopPc → ℕ
  | .start | .idle => 0
  | .wait j _ count i =>
      (if j.numReqNodes ≤ count + freeFrom numHosts pcstat i then 0 else numHosts.toNat + 1) +
        (numHosts + 1 - i).toNat + 1 + dispatchSteps numHosts j.numReqNodes
  | .dispatch j _ i k =>
      if i ≤ j.numReqNodes then
        (j.numReqNodes - i).toNat * numHosts.toNat + (numHosts + 1 - k).toNat + 1
      else 1

/-- What is known of a job for `need` nodes until the pop thread is done with it, if `sent`
messages were sent for the number before. -/
def InHand (numHosts : ℤ) (j : PoppedJob) (t sent : ℕ) (m : Master) : Prop :=
  match m.pop with
  | .wait j' t' count i =>
      (j' = j ∧ t' = t) ∧ 0 ≤ count ∧ 1 ≤ i ∧ m.assigned t = sent ∧
        j.numReqNodes ≤ freeFrom numHosts m.srv.pcstat 1
  | .dispatch j' t' i k =>
      (j' = j ∧ t' = t) ∧ (m.assigned t : ℤ) + 1 = sent + i ∧
        Supplied numHosts j.numReqNodes i k m.srv.pcstat
  | .start | .idle => False

/-- The pop thread is done with the job: it was sent to all its nodes, and they are in its
counter. -/
structure Placed (j : PoppedJob) (t sent : ℕ) (m : Master) : Prop where
  idle : m.pop = .idle
  sent : m.assigned t = sent + j.numReqNodes.toNat
  counter : m.srv.jobnodes j.jobId = j.numReqNodes

section Steps

variable {numHosts : ℤ} {j : PoppedJob} {t sent : ℕ} {m m' : Master}

/-- A round that begins costs at most a scan of the nodes. -/
lemma left_round (numHosts : ℤ) (pcstat : ℤ → HostStat) (j : PoppedJob) (t : ℕ) (i : ℤ) :
    (PopPc.dispatch j t i 1).left numHosts pcstat
      ≤ (j.numReqNodes + 1 - i).toNat * numHosts.toNat + 1 := by
  rw [PopPc.left]
  split_ifs with hi
  · have hsucc : (j.numReqNodes + 1 - i).toNat = (j.numReqNodes - i).toNat + 1 := by omega
    rw [hsucc, Nat.succ_mul]
    have hscan : (numHosts + 1 - 1).toNat = numHosts.toNat := by rw [add_sub_cancel_right]
    omega
  · exact Nat.le_add_left 1 _

/-- A step of another thread: the job stays in hand, and no more steps are left. -/
lemma InHand.aside (h : InHand numHosts j t sent m) {a : MasterAct} {ps : List Packet}
    (hstep : MasterStep numHosts m a m' ps) (ha : ∀ now, a ≠ .pop now) :
    InHand numHosts j t sent m' ∧
      m'.pop.left numHosts m'.srv.pcstat ≤ m.pop.left numHosts m.srv.pcstat := by
  obtain ⟨hpop, hsent, hfree⟩ := masterStep_aside hstep ha
  rw [InHand, hpop, hsent]
  rw [InHand] at h
  cases hpc : m.pop with
  | start | idle =>
      rw [hpc] at h
      exact absurd h id
  | wait j' t' count i =>
      simp only [hpc] at h ⊢
      obtain ⟨hjob, hcount, hi, hassigned, hneed⟩ := h
      have hmore := freeFrom_mono numHosts le_rfl hfree
      refine ⟨⟨hjob, hcount, hi, hassigned, hneed.trans (by exact_mod_cast hmore)⟩, ?_⟩
      have hahead := freeFrom_mono numHosts hi hfree
      simp only [PopPc.left]
      split_ifs <;> omega
  | dispatch j' t' i k =>
      simp only [hpc] at h ⊢
      exact ⟨⟨h.1, h.2.1, h.2.2.mono hfree⟩, le_rfl⟩

/-- A scan goes on: what it has counted and what is ahead stay enough. -/
lemma InHand.scan (h : InHand numHosts j t sent m) {j' : PoppedJob} {t' : ℕ} {count i : ℤ}
    (hpc : m.pop = .wait j' t' count i) (hi : i ≤ numHosts)
    (hm : m' = { m with pop := .wait j' t' (countNode m.srv.pcstat count i) (i + 1) }) :
    InHand numHosts j t sent m' ∧
      m'.pop.left numHosts m'.srv.pcstat < m.pop.left numHosts m.srv.pcstat := by
  simp only [InHand, hpc] at h
  obtain ⟨hjob, hcount, hlow, hassigned, hneed⟩ := h
  have hahead : freeFrom numHosts m.srv.pcstat i
      = freeFrom numHosts m.srv.pcstat (i + 1) + if m.srv.pcstat i = .free then 1 else 0 :=
    freeFrom_of_le hlow hi
  have hcounted : countNode m.srv.pcstat count i
      = count + if m.srv.pcstat i = .free then 1 else 0 := by
    rw [countNode]
    split_ifs <;> omega
  subst hm
  refine ⟨⟨hjob, ?_, by omega, hassigned, hneed⟩, ?_⟩
  · rw [hcounted]
    split_ifs <;> omega
  · simp only [PopPc.left, hpc, hcounted, hahead]
    push_cast
    split_ifs <;> omega

/-- **A step of the pop thread** with a job whose nodes are FREE: it brings the thread closer
to the end, or is the last one. The measure counts the rounds to come, `num_hosts` tests for
each of them, and the rest of the round under way. -/
lemma InHand.pop (h : InHand numHosts j t sent m) {now : ℤ} {ps : List Packet}
    (hstep : PopStep numHosts now m m' ps) :
    (InHand numHosts j t sent m' ∧
      m'.pop.left numHosts m'.srv.pcstat < m.pop.left numHosts m.srv.pcstat) ∨
      Placed j t sent m' := by
  rw [InHand] at h
  cases hstep with
  | init hpc | empty hpc | take hpc | skip hpc =>
      -- in these the thread has no job, or has only just taken it
      rw [hpc] at h
      exact absurd h id
  | scan hpc hi => exact .inl (InHand.scan (by rwa [InHand]) hpc hi rfl)
  | again hpc hi hcount =>
      simp only [hpc] at h
      obtain ⟨⟨rfl, rfl⟩, hcount', hlow, hassigned, hneed⟩ := h
      refine .inl ⟨⟨⟨rfl, rfl⟩, hcount', le_rfl, hassigned, hneed⟩, ?_⟩
      -- the scan is over, so no FREE node lies ahead of it
      have hnone : freeFrom numHosts m.srv.pcstat _ = 0 := freeFrom_of_lt hlow hi
      simp only [PopPc.left, hpc, hnone]
      rw [if_pos (by omega), if_neg (by push_cast; omega)]
      omega
  | @enough j' t' count i hpc hi hcount =>
      simp only [hpc] at h
      obtain ⟨⟨rfl, rfl⟩, -, -, hassigned, hneed⟩ := h
      refine .inl ⟨⟨⟨rfl, rfl⟩, ?_, .start hneed⟩, ?_⟩
      · show ((m.assigned t' : ℕ) : ℤ) + 1 = sent + 1
        rw [hassigned]
      · have hround := left_round numHosts m.srv.pcstat j' t' 1
        rw [add_sub_cancel_right] at hround
        simp only [hpc]
        rw [PopPc.left, dispatchSteps]
        exact Nat.lt_of_le_of_lt hround (by omega)
  | @assign j' t' i k hpc hi hk hin hfree =>
      simp only [hpc] at h
      obtain ⟨⟨rfl, rfl⟩, hassigned, hsupplied⟩ := h
      refine .inl ⟨⟨⟨rfl, rfl⟩, ?_, hsupplied.assign hi⟩, ?_⟩
      · rw [Master.assigned, countP_isAssigned_cons, if_pos rfl]
        rw [Master.assigned] at hassigned
        push_cast
        omega
      · -- one round fewer, which is worth more than any round under way
        have hround := left_round numHosts (m.srv.assign k j'.jobId).pcstat j' t' (i + 1)
        have hleft : m.pop.left numHosts m.srv.pcstat = (j'.numReqNodes - i).toNat *
            numHosts.toNat + (numHosts + 1 - k).toNat + 1 := by
          rw [hpc]
          exact if_pos hi
        rw [add_sub_add_right_eq_sub] at hround
        rw [hleft]
        exact Nat.lt_of_le_of_lt hround (by omega)
  | @next j' t' i k hpc hi hk hbusy =>
      simp only [hpc] at h
      obtain ⟨⟨rfl, rfl⟩, hassigned, hsupplied⟩ := h
      refine .inl ⟨⟨⟨rfl, rfl⟩, hassigned, hsupplied.next hi hbusy⟩, ?_⟩
      simp only [hpc, PopPc.left, if_pos hi]
      omega
  | giveUp hpc hi hk =>
      simp only [hpc] at h
      -- a supplied round ends at a FREE node, not behind the last host
      obtain ⟨⟨rfl, -⟩, -, hsupplied⟩ := h
      exact absurd (hsupplied.le_numHosts hi) (not_le.mpr hk)
  | @finish j' t' i k hpc hi hin =>
      simp only [hpc] at h
      obtain ⟨⟨rfl, rfl⟩, hassigned, hsupplied⟩ := h
      have hround := hsupplied.round
      refine .inr ⟨rfl, ?_, Function.update_self ..⟩
      show m.assigned t' = sent + j'.numReqNodes.toNat
      omega

/-- With a job in hand there is a step left. -/
lemma InHand.left_pos (h : InHand numHosts j t sent m) :
    0 < m.pop.left numHosts m.srv.pcstat := by
  rw [InHand] at h
  cases hpc : m.pop with
  | start | idle =>
      rw [hpc] at h
      exact absurd h id
  | wait j' t' count i =>
      rw [PopPc.left]
      omega
  | dispatch j' t' i k =>
      rw [PopPc.left]
      split_ifs <;> omega

end Steps

/-! ### Runs -/

/-- A step of the pop thread. -/
def SysAct.isPop : SysAct → Bool
  | .pop _ => true
  | _ => false

/-- The pop thread moves in its own steps only. -/
lemma masterAct_ne_pop {numHosts : ℤ} {l : SysAct} (hl : l.isPop = false) {a : MasterAct}
    (ha : l.masterAct numHosts = some a) (now : ℤ) : a ≠ .pop now := by
  rintro rfl
  cases l with
  | pop now' => cases hl
  | deliver p createOk now' =>
      rw [SysAct.masterAct] at ha
      cases hr : p.reader numHosts <;> simp [hr] at ha
  | _ => cases ha

section Run

variable {numHosts : ℤ} {accepts : Network} {ips : ℤ → Bytes} {j : PoppedJob} {t sent : ℕ}

/-- **One step of the cluster** with a job in hand: a step of the pop thread uses up one of
its steps or was the last one, and no other step adds to them. -/
lemma InHand.sysStep {l : SysAct} {s s' : Sys} (h : InHand numHosts j t sent s.master)
    (hstep : s.step numHosts accepts l = some s') :
    (InHand numHosts j t sent s'.master ∧
      s'.master.pop.left numHosts s'.master.srv.pcstat + l.isPop.toNat
        ≤ s.master.pop.left numHosts s.master.srv.pcstat) ∨
      (l.isPop = true ∧ Placed j t sent s'.master) := by
  by_cases hl : l.isPop = true
  · cases l with
    | pop now =>
        obtain ⟨⟨m, ps⟩, hm, rfl⟩ := Option.map_eq_some_iff.mp hstep
        rcases h.pop (popStep_spec hm) with ⟨hin, hlt⟩ | hplaced
        · exact .inl ⟨hin, hlt⟩
        · exact .inr ⟨rfl, hplaced⟩
    | _ => cases hl
  · rw [Bool.not_eq_true] at hl
    refine .inl ?_
    rw [hl]
    rcases master_sysStep (sysStep_spec hstep) with hsame | ⟨a, ps, ha, hm⟩
    · rw [hsame]
      exact ⟨h, le_rfl⟩
    · exact h.aside (masterStep_spec hm) (masterAct_ne_pop hl ha)

/-- The job is in hand until the pop thread has taken as many steps as it had left. -/
lemma placed_of_run {ls : List SysAct} {s s' : Sys} (h : InHand numHosts j t sent s.master)
    (hrun : (clusterMachine numHosts accepts ips).run ls s = some s')
    (hsteps : s.master.pop.left numHosts s.master.srv.pcstat ≤ ls.countP SysAct.isPop) :
    ∃ ls₁ ls₂ s₁, ls = ls₁ ++ ls₂ ∧
      (clusterMachine numHosts accepts ips).run ls₁ s = some s₁ ∧
      ls₁.countP SysAct.isPop ≤ s.master.pop.left numHosts s.master.srv.pcstat ∧
      Placed j t sent s₁.master := by
  induction ls generalizing s with
  | nil => exact absurd h.left_pos (not_lt.mpr hsteps)
  | cons l ls ih =>
      obtain ⟨u, hu, hrest⟩ := Option.bind_eq_some_iff.mp hrun
      have hcount : ∀ ls' : List SysAct, (l :: ls').countP SysAct.isPop
          = ls'.countP SysAct.isPop + l.isPop.toNat := by
        intro ls'
        rw [List.countP_cons]
        cases l.isPop <;> rfl
      rcases h.sysStep hu with ⟨hin, hle⟩ | ⟨hl, hplaced⟩
      · rw [hcount] at hsteps
        obtain ⟨ls₁, ls₂, s₁, rfl, hrun₁, hbound, hplaced⟩ := ih hin hrest (by omega)
        refine ⟨l :: ls₁, ls₂, s₁, rfl, ?_, ?_, hplaced⟩
        · exact Option.bind_eq_some_iff.mpr ⟨u, hu, hrun₁⟩
        · rw [hcount]
          omega
      · refine ⟨[l], ls, u, rfl, ?_, ?_, hplaced⟩
        · exact Option.bind_eq_some_iff.mpr ⟨u, hu, rfl⟩
        · rw [hcount, hl]
          exact h.left_pos

/-- The scan counts from the first node, and from zero. -/
structure Scanning (m : Master) : Prop where
  count : ∀ j t count i, m.pop = .wait j t count i → 0 ≤ count ∧ 1 ≤ i

/-- **One step of the master** keeps the scan in range. -/
lemma Scanning.step {m m' : Master} {a : MasterAct} {ps : List Packet} (h : Scanning m)
    (hstep : MasterStep numHosts m a m' ps) : Scanning m' := by
  have hcount := h.count
  cases hstep with
  | pop now hpop =>
      refine ⟨?_⟩
      cases hpop with
      | empty hpc => exact hcount
      | take hpc =>
          intro j t count i hj
          cases hj
          exact ⟨le_rfl, le_rfl⟩
      | scan hpc hi =>
          have hin := hcount _ _ _ _ hpc
          intro j t count i hj
          cases hj
          rw [countNode]
          split_ifs <;> omega
      | again hpc hi =>
          have hin := hcount _ _ _ _ hpc
          intro j t count i hj
          cases hj
          exact ⟨hin.1, le_rfl⟩
      | _ =>
          intro j t count i hj
          cases hj
  | _ => exact ⟨hcount⟩

/-- A bound on the steps of the pop thread from a scan on: the rest of it, one more, and the
dispatch loops. -/
def waitSteps (numHosts need : ℤ) : ℕ :=
  2 * (numHosts.toNat + 1) + dispatchSteps numHosts need

/-- **The pop thread gets done.** In a state with a job in the waiting loop and enough FREE
nodes for it, and in every run from there, over any network and with any steps of the other
threads in between: within `waitSteps` of its own steps the pop thread has sent the job to as
many nodes as it asks for, has written its counter, and is back at its loop. -/
theorem placed_within {s s' : Sys} {ls : List SysAct} {count i : ℤ}
    (hreach : (clusterMachine numHosts accepts ips).Reach Machine.always s)
    (hpc : s.master.pop = .wait j t count i)
    (henough : j.numReqNodes ≤ (freeNodes numHosts s.master.srv.pcstat).length)
    (hrun : (clusterMachine numHosts accepts ips).run ls s = some s')
    (hsteps : waitSteps numHosts j.numReqNodes ≤ ls.countP SysAct.isPop) :
    ∃ ls₁ ls₂ s₁, ls = ls₁ ++ ls₂ ∧
      (clusterMachine numHosts accepts ips).run ls₁ s = some s₁ ∧
      ls₁.countP SysAct.isPop ≤ waitSteps numHosts j.numReqNodes ∧
      Placed j t (s.master.assigned t) s₁.master := by
  have hscan : Scanning s.master :=
    cluster_invariant ⟨nofun⟩ (fun _ _ _ _ hI _ hs => hI.step hs)
      (G := fun _ _ => True) (hreach.mono fun _ _ _ _ _ => trivial)
  obtain ⟨hcount, hi⟩ := hscan.count j t count i hpc
  have hin : InHand numHosts j t (s.master.assigned t) s.master := by
    rw [InHand, hpc]
    exact ⟨⟨rfl, rfl⟩, hcount, hi, rfl, by rw [freeFrom_one]; exact_mod_cast henough⟩
  have hleft : s.master.pop.left numHosts s.master.srv.pcstat
      ≤ waitSteps numHosts j.numReqNodes := by
    rw [hpc, PopPc.left, waitSteps]
    split_ifs <;> omega
  obtain ⟨ls₁, ls₂, s₁, heq, hrun₁, hbound, hplaced⟩ := placed_of_run hin hrun
    (hleft.trans hsteps)
  exact ⟨ls₁, ls₂, s₁, heq, hrun₁, hbound.trans hleft, hplaced⟩

end Run

/-- A job for the only node of a cluster, which is FREE, is placed within six steps. -/
theorem placed_within_one : ∃ j s ls₁ s₁,
    (clusterMachine 1 lossless fun _ => []).Reach Machine.always s ∧
      (∃ count i, s.master.pop = .wait j 0 count i) ∧ j.numReqNodes = 1 ∧
      (clusterMachine 1 lossless fun _ => []).run ls₁ s = some s₁ ∧
      ls₁.countP SysAct.isPop ≤ 6 ∧ Placed j 0 (s.master.assigned 0) s₁.master := by
  have hrun : ((clusterMachine 1 lossless fun _ => []).run takeOne
      (clusterMachine 1 lossless fun _ => []).init).any (fun s =>
        (match s.master.pop with
          | .wait j t _ _ => decide (j.numReqNodes = 1 ∧ t = 0)
          | _ => false) &&
        decide ((freeNodes 1 s.master.srv.pcstat).length = 1) &&
        ((clusterMachine 1 lossless fun _ => []).run (List.replicate 6 (.pop 0)) s).isSome)
          = true := by
    decide +kernel
  obtain ⟨s, hs, hp⟩ := Machine.exists_reach_of_run hrun
  rw [Bool.and_eq_true, Bool.and_eq_true, decide_eq_true_eq, Option.isSome_iff_exists] at hp
  obtain ⟨⟨hpop, hfree⟩, s', hrest⟩ := hp
  cases hpc : s.master.pop with
  | wait j t count i =>
      simp only [hpc, decide_eq_true_eq] at hpop
      obtain ⟨hneed, rfl⟩ := hpop
      have hsteps :
          waitSteps 1 j.numReqNodes ≤ (List.replicate 6 (.pop 0)).countP SysAct.isPop := by
        rw [hneed]
        decide
      obtain ⟨ls₁, -, s₁, -, hrun₁, hbound, hplaced⟩ :=
        placed_within hs hpc (by rw [hneed, hfree]; rfl) hrest hsteps
      rw [hneed] at hbound
      exact ⟨j, s, ls₁, s₁, hs, ⟨count, i, hpc⟩, hneed, hrun₁, hbound, hplaced⟩
  | _ => simp [hpc] at hpop

end Epbs
