/-
What a lost message costs: a node for good.

* `NodeFate`, `node_masterStep`: what a step of the master does to a node: it is sent a job
  when it is FREE, released when its report is handled, or left alone;
* `Stranded`: a node that is BUSY and has no dispatch under way; nothing releases it, over any
  network (`stranded_for_good`);
* `UsedOnce`: over the sockets that are open no report is ever handled, so every node is sent
  at most one job in the life of the server (`nodes_used_once`).
-/
import Epbs.Cluster.Accounts
import Epbs.Cluster.Endpoints
import Epbs.Cluster.Traffic

namespace Epbs

/-! ### A node and a step of the master -/

/-- What happens to the node `k` in a step of the master. -/
inductive NodeFate (k : ℤ) (m : Master) (a : MasterAct) (m' : Master) : Prop
  | same (hstat : m'.srv.pcstat k = m.srv.pcstat k) (hsent : m'.sentTo = m.sentTo)
  | sent (job : ℕ) (hfree : m.srv.pcstat k = .free) (hbusy : m'.srv.pcstat k = .busy)
      (hsent : m'.sentTo = (job, k) ::ₘ m.sentTo)
  | other (job : ℕ) (i : ℤ) (hi : i ≠ k) (hstat : m'.srv.pcstat k = m.srv.pcstat k)
      (hsent : m'.sentTo = (job, i) ::ₘ m.sentTo)
  | released (msg : Msg) (job : ℕ) (now : ℤ) (ha : a = .result msg job now) (hsrc : msg.src = k)
      (hm2 : msg.m2 = JobStat.finished.code) (hsent : m'.sentTo = m.sentTo)

section Fate

variable {numHosts : ℤ} {m m' : Master} {a : MasterAct} {ps : List Packet}

/-- A node that a report is not from keeps its status. -/
lemma pcstat_countDown_of_ne {s : Server} {src k : ℤ} (h : src ≠ k) (jobId : ℤ) :
    (s.countDown src jobId).pcstat k = s.pcstat k :=
  Function.update_of_ne (Ne.symm h) ..

/-- A node that is not assigned keeps its status. -/
lemma pcstat_assign_of_ne {s : Server} {i jobId k : ℤ} (h : i ≠ k) :
    (s.assign i jobId).pcstat k = s.pcstat k :=
  Function.update_of_ne (Ne.symm h) ..

/-- **One step of the master**, for a node, once the pop thread runs: it is given a job while it is
FREE, freed by its own report, or left alone. -/
lemma node_masterStep (k : ℤ) (hpc : m.pop ≠ .start) (hstep : MasterStep numHosts m a m' ps) :
    NodeFate k m a m' := by
  cases hstep with
  | submit req now pcomm username => exact .same rfl rfl
  | cancel jobId hhosts =>
      refine .same rfl ?_
      simp [Master.sentTo, List.filterMap_map, Function.comp_def, Event.sentTo]
  | pop now hpop =>
      cases hpop with
      | init hold => exact absurd hold hpc
      | take hold htake | skip hold htake =>
          obtain ⟨_, _, _, _, rfl⟩ := jobQueueTake_some htake
          exact .same rfl rfl
      | @assign j job i node hold hi hk hin hfree =>
          by_cases hnode : node = k
          · subst hnode
            exact .sent job hfree (Function.update_self ..) rfl
          · exact .other job node hnode (pcstat_assign_of_ne hnode) rfl
      | _ => exact .same rfl rfl
  | other msg job now hm2 => exact .same rfl rfl
  | report msg job now hm2 =>
      by_cases hsrc : msg.src = k
      · exact .released msg job now rfl hsrc hm2 rfl
      · exact .same (pcstat_countDown_of_ne hsrc msg.m1) rfl
  | lastReport msg job now hm2 =>
      by_cases hsrc : msg.src = k
      · exact .released msg job now rfl hsrc hm2 rfl
      · exact .same (pcstat_countDown_of_ne hsrc msg.m1) rfl
  | hostStatus msg job => exact .same rfl rfl

/-- The pop thread starts once. -/
lemma started_masterStep (hpc : m.pop ≠ .start) (hstep : MasterStep numHosts m a m' ps) :
    m'.pop ≠ .start := by
  cases hstep with
  | pop now hpop =>
      cases hpop with
      | empty => exact hpc
      | _ => simp
  | _ => exact hpc

end Fate

/-! ### Nodes that nothing is heard of -/

/-- A node that is BUSY with no dispatch under way: nothing is left in the cluster that could make
it report. -/
structure Stranded (k : ℤ) (L : Ledger) : Prop where
  started : L.master.pop ≠ .start
  busy : L.master.srv.pcstat k = .busy
  none : ∀ d ∈ L.out, d.node ≠ k

/-- The submit messages sent to a node. -/
def Master.sentToNode (m : Master) (k : ℤ) : ℕ := m.sentTo.countP fun p => p.2 = k

namespace Stranded

variable {k : ℤ} {L L' : Ledger}

/-- What is dropped does not help: with fewer dispatches under way the node is stranded still. -/
lemma drop (h : Stranded k L) {out : Multiset Dispatch} (hle : out ≤ L.out) :
    Stranded k ⟨L.master, out⟩ :=
  ⟨h.started, h.busy, fun d hd => h.none d (Multiset.mem_of_le hle hd)⟩

/-- **One step of the ledger** leaves the node stranded: no report of it can come, and no job
is sent to it. -/
lemma step (h : Stranded k L) {numHosts : ℤ} {a : MasterAct}
    (hstep : L.step numHosts a = some L') :
    Stranded k L' ∧ L'.master.sentToNode k = L.master.sentToNode k := by
  obtain ⟨ps, hm, hans, hout⟩ := ledgerStep_spec hstep
  have hstarted := started_masterStep h.started hm
  -- what is sent is sent to a FREE node
  have hnew : ∀ d ∈ L'.out, d.node ≠ k := by
    intro d hd
    rw [hout] at hd
    generalize L'.master = m at hm
    cases hm with
    | cancel jobId hhosts =>
        refine h.none d ?_
        simpa [outAfter, List.filterMap_map, Function.comp_def] using hd
    | pop now hpop =>
        cases hpop with
        | @assign j job i node hpc hi hk hin hfree =>
            rcases Multiset.mem_add.mp hd with hold | hnew
            · exact h.none d hold
            · obtain rfl : d = ⟨job, node, j.jobId⟩ := Multiset.mem_singleton.mp hnew
              rintro rfl
              rw [h.busy] at hfree
              cases hfree
        | _ => exact h.none d (by simpa [outAfter] using hd)
    | other msg job now hm2 => exact h.none d (by rwa [outAfter, if_neg hm2] at hd)
    | report msg job now hm2 | lastReport msg job now hm2 =>
        rw [outAfter, if_pos hm2] at hd
        exact h.none d (Multiset.mem_of_mem_erase hd)
    | submit | hostStatus => exact h.none d (by simpa [outAfter] using hd)
  cases node_masterStep k h.started hm with
  | same hstat hsent =>
      exact ⟨⟨hstarted, hstat.trans h.busy, hnew⟩, by rw [Master.sentToNode, hsent]; rfl⟩
  | sent job hfree =>
      rw [h.busy] at hfree
      cases hfree
  | other job i hi hstat hsent =>
      refine ⟨⟨hstarted, hstat.trans h.busy, hnew⟩, ?_⟩
      rw [Master.sentToNode, hsent, Multiset.countP_cons_of_neg _ (by exact hi)]
      rfl
  | released msg job now ha hsrc hm2 =>
      rw [ha] at hans
      exact absurd hsrc (h.none _ (hans hm2))

/-- **One step of the cluster**, over any network. -/
lemma sysStep {numHosts : ℤ} {accepts : Network} {s s' : Sys} {l : SysAct}
    (h : Stranded k (s.ledger numHosts)) (hstep : s.step numHosts accepts l = some s') :
    Stranded k (s'.ledger numHosts) ∧ s'.master.sentToNode k = s.master.sentToNode k := by
  obtain ⟨t, ht, hdelay⟩ := (Delayed.refl s).step hstep
  have hkept : Stranded k (t.ledger numHosts) ∧
      t.master.sentToNode k = s.master.sentToNode k := by
    rcases ledger_sysStep (sysStep_spec ht) with hsame | ⟨a, -, hled⟩
    · have hsent : t.master = s.master := congrArg Ledger.master hsame
      rw [hsame, hsent]
      exact ⟨h, rfl⟩
    · exact h.step hled
  rw [Sys.ledger, ← hdelay.master]
  exact ⟨hkept.1.drop (hdelay.outstanding_le numHosts), hkept.2⟩

end Stranded

/-- No node is BUSY before the pop thread starts. -/
structure IdleAtStart (m : Master) : Prop where
  idle : m.pop = .start → ∀ k, m.srv.pcstat k ≠ .busy

lemma idleAtStart_init (ips : ℤ → Bytes) : IdleAtStart (.init ips) :=
  ⟨fun _ _ h => by cases h⟩

lemma IdleAtStart.step {numHosts : ℤ} {m m' : Master} {a : MasterAct} {ps : List Packet}
    (h : IdleAtStart m) (hstep : MasterStep numHosts m a m' ps) : IdleAtStart m' := by
  have hidle := h.idle
  have hrelease : ∀ src jobId, m.pop = .start →
      ∀ k, (m.srv.countDown src jobId).pcstat k ≠ .busy := by
    intro src jobId hpc k
    show Function.update m.srv.pcstat src .free k ≠ .busy
    rw [Function.update_apply]
    split_ifs
    · exact fun hc => by cases hc
    · exact hidle hpc k
  cases hstep with
  | pop now hpop =>
      refine ⟨fun hpc => ?_⟩
      cases hpop with
      | empty => exact hidle hpc
      | _ => cases hpc
  | report msg job now => exact ⟨hrelease msg.src msg.m1⟩
  | lastReport msg job now => exact ⟨hrelease msg.src msg.m1⟩
  | _ => exact ⟨hidle⟩

/-- **A lost message costs a node.** In every reachable state, over any network: a node that is
BUSY while no submit message to it, no job on it and no report from it is under way stays BUSY
in every further run, whatever the clients, the threads and the network do, and is never sent
a job again. -/
theorem stranded_for_good {numHosts : ℤ} {accepts : Network} {ips : ℤ → Bytes} {s s' : Sys}
    {ls : List SysAct} {k : ℤ}
    (hreach : (clusterMachine numHosts accepts ips).Reach Machine.always s)
    (hbusy : s.master.srv.pcstat k = .busy) (hnone : ∀ d ∈ s.outstanding numHosts, d.node ≠ k)
    (hrun : (clusterMachine numHosts accepts ips).run ls s = some s') :
    s'.master.srv.pcstat k = .busy ∧ (∀ d ∈ s'.outstanding numHosts, d.node ≠ k) ∧
      s'.master.sentToNode k = s.master.sentToNode k := by
  have hidle : IdleAtStart s.master :=
    cluster_invariant (idleAtStart_init ips) (fun _ _ _ _ hI _ hs => hI.step hs)
      (G := fun _ _ => True) (hreach.mono fun _ _ _ _ _ => trivial)
  have hstart : Stranded k (s.ledger numHosts) :=
    ⟨fun hpc => hidle.idle hpc k hbusy, hbusy, hnone⟩
  obtain ⟨hend, hsent⟩ : Stranded k (s'.ledger numHosts) ∧
      s'.master.sentToNode k = s.master.sentToNode k :=
    hreach.along (P := fun u => Stranded k (u.ledger numHosts) ∧
        u.master.sentToNode k = s.master.sentToNode k)
      (Machine.guardedRun_always ..) hrun ⟨hstart, rfl⟩ fun u l u' _ _ hs hP => by
        obtain ⟨hkept, hsame⟩ := hP.1.sysStep hs
        exact ⟨hkept, hsame.trans hP.2⟩
  exact ⟨hend.busy, hend.none, hsent⟩

/-- Node 1 is given a job that the network drops; another job is submitted, and the pop thread
looks for a node. -/
theorem stranded_for_good_dropped : ∃ s s',
    (clusterMachine 1 (fun _ _ => false) fun _ => []).Reach Machine.always s ∧
      (clusterMachine 1 (fun _ _ => false) fun _ => []).run
        (submitOne :: List.replicate 8 (.pop 0)) s = some s' ∧
      s'.master.srv.pcstat 1 = .busy ∧ s'.master.sentToNode 1 = s.master.sentToNode 1 := by
  have hrun : ((clusterMachine 1 (fun _ _ => false) fun _ => []).run assignOne
      (clusterMachine 1 (fun _ _ => false) fun _ => []).init).any (fun s =>
        decide (s.master.srv.pcstat 1 = .busy) && decide (s.flight = []) &&
        decide ((s.node 1).pc = .recv) &&
        ((clusterMachine 1 (fun _ _ => false) fun _ => []).run
          (submitOne :: List.replicate 8 (.pop 0)) s).isSome) = true := by
    decide +kernel
  obtain ⟨s, hs, hp⟩ := Machine.exists_reach_of_run hrun
  simp only [Bool.and_eq_true, decide_eq_true_eq, Option.isSome_iff_exists] at hp
  obtain ⟨⟨⟨hbusy, hflight⟩, hnode⟩, s', hrest⟩ := hp
  have hquiet : s.AtRest 1 := by
    refine ⟨hflight, fun k hlow hhigh => ?_⟩
    obtain rfl : k = 1 := le_antisymm hhigh hlow
    exact hnode
  have hnone : ∀ d ∈ s.outstanding 1, d.node ≠ 1 := by
    rw [hquiet.outstanding_eq]
    exact fun d hd => absurd hd (Multiset.notMem_zero d)
  obtain ⟨hend, -, hsent⟩ := stranded_for_good hs hbusy hnone hrest
  exact ⟨s, s', hs, hrest, hend, hsent⟩

/-! ### The sockets that are open -/

/-- The nodes that were sent a job are BUSY, and were sent one job each. As no report is heard they
never get FREE again. -/
structure UsedOnce (numHosts : ℤ) (m : Master) : Prop where
  placing : Placing numHosts m
  start : m.pop = .start → m.sentTo = 0
  busy : ∀ p ∈ m.sentTo, m.srv.pcstat p.2 = .busy
  hosts : ∀ p ∈ m.sentTo, 1 ≤ p.2 ∧ p.2 ≤ numHosts
  once : (m.sentTo.map Prod.snd).Nodup

lemma usedOnce_init (numHosts : ℤ) (ips : ℤ → Bytes) : UsedOnce numHosts (.init ips) where
  placing := placing_init numHosts ips
  start _ := rfl
  busy p hp := absurd hp (Multiset.notMem_zero p)
  hosts p hp := absurd hp (Multiset.notMem_zero p)
  once := Multiset.nodup_zero

section Used

variable {numHosts : ℤ} {m m' : Master} {a : MasterAct} {ps : List Packet}

/-- A submit message goes to a node of the host list that was sent no job before. -/
lemma UsedOnce.assign (h : UsedOnce numHosts m) (hplacing : Placing numHosts m') {job : ℕ} {k : ℤ}
    (hk : 1 ≤ k ∧ k ≤ numHosts) (hfree : m.srv.pcstat k = .free)
    (hstat : m'.srv.pcstat = Function.update m.srv.pcstat k .busy)
    (hstart : m'.pop ≠ .start) (hsent : m'.sentTo = (job, k) ::ₘ m.sentTo) :
    UsedOnce numHosts m' where
  placing := hplacing
  start hpc := absurd hpc hstart
  busy := by
    rw [hsent, hstat]
    refine Multiset.forall_mem_cons.mpr ⟨Function.update_self .., fun p hp => ?_⟩
    rw [Function.update_apply]
    split_ifs
    · rfl
    · exact h.busy p hp
  hosts := by
    rw [hsent]
    exact Multiset.forall_mem_cons.mpr ⟨hk, h.hosts⟩
  once := by
    rw [hsent, Multiset.map_cons, Multiset.nodup_cons]
    refine ⟨fun hmem => ?_, h.once⟩
    obtain ⟨p, hp, rfl⟩ := Multiset.mem_map.mp hmem
    rw [h.busy p hp] at hfree
    cases hfree

/-- A step that sends no job and releases no node. -/
lemma UsedOnce.of_same (h : UsedOnce numHosts m) (hplacing : Placing numHosts m')
    (hstart : m'.pop = .start → m.pop = .start) (hstat : m'.srv.pcstat = m.srv.pcstat)
    (hsent : m'.sentTo = m.sentTo) : UsedOnce numHosts m' where
  placing := hplacing
  start hpc := hsent.trans (h.start (hstart hpc))
  busy := by
    rw [hsent, hstat]
    exact h.busy
  hosts := by
    rw [hsent]
    exact h.hosts
  once := by
    rw [hsent]
    exact h.once

/-- **One step of the master** that handles no report. -/
lemma UsedOnce.step (h : UsedOnce numHosts m) (ha : ∀ msg job now, a ≠ .result msg job now)
    (hstep : MasterStep numHosts m a m' ps) : UsedOnce numHosts m' := by
  have hplacing := h.placing.step hstep
  cases hstep with
  | submit req now pcomm username => exact h.of_same hplacing id rfl rfl
  | cancel jobId hhosts =>
      refine h.of_same hplacing id rfl ?_
      simp [Master.sentTo, List.filterMap_map, Function.comp_def, Event.sentTo]
  | pop now hpop =>
      cases hpop with
      | init hpc =>
          have hnone : m.sentTo = 0 := h.start hpc
          have hnone' : ∀ p : ℕ × ℤ, p ∉ m.sentTo := by
            rw [hnone]
            exact Multiset.notMem_zero
          exact ⟨hplacing, fun _ => hnone, fun p hp => absurd hp (hnone' p),
            fun p hp => absurd hp (hnone' p), h.once⟩
      | take hold htake | skip hold htake =>
          obtain ⟨_, _, _, _, rfl⟩ := jobQueueTake_some htake
          exact h.of_same hplacing (fun hpc => by cases hpc) rfl rfl
      | @assign j job i k hpc hi hk hin hfree =>
          exact h.assign hplacing ⟨(h.placing.rounds j job i k hpc).2, hk⟩ hfree rfl
            (fun hc => by cases hc) rfl
      | empty => exact h
      | _ => exact h.of_same hplacing (fun hpc => by cases hpc) rfl rfl
  | other msg job now => exact absurd rfl (ha msg job now)
  | report msg job now => exact absurd rfl (ha msg job now)
  | lastReport msg job now => exact absurd rfl (ha msg job now)
  | hostStatus msg job => exact h.of_same hplacing id rfl rfl

end Used

/-- **Every node is used once.** In every state that a run over the open sockets reaches, each
node was sent at most one job since the server was started, is BUSY if it was sent one, and so
the server has sent no more submit messages than there are nodes. -/
theorem nodes_used_once {numHosts : ℤ} {ips : ℤ → Bytes} {s : Sys}
    (h : (clusterMachine numHosts (listening numHosts) ips).Reach Machine.always s) :
    (s.master.sentTo.map Prod.snd).Nodup ∧
      (∀ p ∈ s.master.sentTo, s.master.srv.pcstat p.2 = .busy) ∧
      Multiset.card s.master.sentTo ≤ numHosts.toNat := by
  have hused : UsedOnce numHosts s.master := by
    refine h.invariant (I := fun s => UsedOnce numHosts s.master) (usedOnce_init numHosts ips) ?_
    intro s l s' hreach hI _ hs
    have hstep := sysStep_spec hs
    cases hstep with
    | request hl hreq hm => exact hI.step hreq.notResult (masterStep_spec hm)
    | result hp hport hl hm => exact absurd hport ((unheard_of_reach hreach).flight _ hp).1
    | hostStatus hp hport hl hm => exact absurd hport ((unheard_of_reach hreach).flight _ hp).2
    | receive hp hport hhost hk hn => exact hI
    | cancelNode hp hport hhost hk hn => exact hI
    | node hk hn => exact hI
  refine ⟨hused.once, hused.busy, ?_⟩
  -- the nodes that were sent a job are distinct nodes of the host list
  have hsub : (s.master.sentTo.map Prod.snd).toFinset ⊆ Finset.Icc 1 numHosts := by
    intro k hk
    obtain ⟨p, hp, rfl⟩ := Multiset.mem_map.mp (Multiset.mem_toFinset.mp hk)
    exact Finset.mem_Icc.mpr (hused.hosts p hp)
  have hcard := Finset.card_le_card hsub
  rw [Multiset.toFinset_card_of_nodup hused.once, Multiset.card_map, Int.card_Icc,
    add_sub_cancel_right] at hcard
  exact hcard

/-- The only node was sent its job. -/
theorem nodes_used_once_one : ∃ s,
    (clusterMachine 1 (listening 1) fun _ => []).Reach Machine.always s ∧
      s.master.sentTo = {(0, 1)} ∧ s.master.srv.pcstat 1 = .busy ∧
      Multiset.card s.master.sentTo ≤ 1 := by
  have hrun : ((clusterMachine 1 (listening 1) fun _ => []).run assignOne
      (clusterMachine 1 (listening 1) fun _ => []).init).any
        (fun s => decide (s.master.log.filterMap Event.sentTo = [(0, 1)])) = true := by
    decide +kernel
  obtain ⟨s, hs, hp⟩ := Machine.exists_reach_of_run hrun
  have hsent : s.master.sentTo = {(0, 1)} := congrArg _ (of_decide_eq_true hp)
  obtain ⟨-, hbusy, hcard⟩ := nodes_used_once hs
  exact ⟨s, hs, hsent, hbusy (0, 1) (by rw [hsent]; exact Multiset.mem_singleton_self _), hcard⟩

end Epbs
