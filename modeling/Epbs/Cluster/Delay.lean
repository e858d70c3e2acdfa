/-
Loss is delay: what a network drops could as well be late for ever.

* `Delayed`: two clusters with the same master and the same nodes, the second with more
  packets in flight; `Delayed.step`: a step of the first over any network is a step of the
  second over the lossless one;
* `exists_delayed`, `delayed_run`: so what is reached over any network is reached over the
  lossless one, for the master, for the nodes and for every guard on what the master handles;
* `loss_is_delay`: by the same steps.
-/
import Epbs.Cluster.Exclusivity

namespace Epbs

/-! ### Packets that stay in flight -/

/-- The cluster `t` is `s` with the packets that `s` has lost still in flight. -/
structure Delayed (s t : Sys) : Prop where
  master : t.master = s.master
  node : t.node = s.node
  flight : s.flight.Subperm t.flight

namespace Delayed

variable {numHosts : ℤ} {accepts : Network} {s s' t : Sys}

lemma refl (s : Sys) : Delayed s s := ⟨rfl, rfl, .refl _⟩

/-- A packet is taken on both sides. -/
lemma take (h : Delayed s t) (p : Packet) : Delayed (s.take p) (t.take p) :=
  ⟨h.master, h.node, h.flight.erase p⟩

lemma setMaster (h : Delayed s t) (m : Master) : Delayed (s.setMaster m) (t.setMaster m) :=
  ⟨rfl, h.node, h.flight⟩

lemma setNode (h : Delayed s t) (k : ℤ) (n : Node) : Delayed (s.setNode k n) (t.setNode k n) :=
  ⟨h.master, congrArg (fun nodes : ℤ → Node => Function.update nodes k n) h.node, h.flight⟩

/-- What the network drops stays in flight on the other side. -/
lemma send (h : Delayed s t) (accepts : Network) (ps : List Packet) :
    Delayed (s.send accepts ps) (t.send lossless ps) := by
  have hall : ps.filter (lossless t) = ps := List.filter_eq_self.mpr fun _ _ => rfl
  refine ⟨h.master, h.node, ?_⟩
  show (s.flight ++ ps.filter (accepts s)).Subperm (t.flight ++ ps.filter (lossless t))
  rw [hall]
  exact h.flight.append List.filter_sublist.subperm

/-- A thread of the master takes its step on both sides. -/
lemma masterStep (h : Delayed s t) {a : MasterAct}
    (hstep : s.masterStep numHosts accepts a = some s') :
    ∃ t', t.masterStep numHosts lossless a = some t' ∧ Delayed s' t' := by
  obtain ⟨⟨m, ps⟩, hm, rfl⟩ := Option.map_eq_some_iff.mp hstep
  refine ⟨_, ?_, (h.setMaster m).send accepts ps⟩
  rw [Sys.masterStep, h.master, hm]
  rfl

/-- **One step of the cluster** over any network is a step over the lossless one. -/
lemma step (h : Delayed s t) {l : SysAct} (hstep : s.step numHosts accepts l = some s') :
    ∃ t', t.step numHosts lossless l = some t' ∧ Delayed s' t' := by
  cases l with
  | submit req now => exact h.masterStep hstep
  | cancel jobId => exact h.masterStep hstep
  | pop now => exact h.masterStep hstep
  | deliver p createOk now =>
      simp only [Sys.step] at hstep ⊢
      split_ifs at hstep with hp
      rw [if_pos (h.flight.subset hp), h.master, h.node]
      cases hr : p.reader numHosts with
      | result | hostStatus =>
          simp only [hr] at hstep
          obtain ⟨m, hm, rfl⟩ := Option.map_eq_some_iff.mp hstep
          exact ⟨_, congrArg (Option.map (t.take p).setMaster) hm, (h.take p).setMaster m⟩
      | job k | cancelLoop k =>
          simp only [hr] at hstep
          obtain ⟨n, hn, rfl⟩ := Option.map_eq_some_iff.mp hstep
          exact ⟨_, congrArg (Option.map fun n => (t.take p).setNode k n) hn,
            (h.take p).setNode k n⟩
      | nobody =>
          simp only [hr] at hstep
          cases hstep
  | node k a =>
      simp only [Sys.step] at hstep ⊢
      split_ifs at hstep with hk
      obtain ⟨⟨n, ps⟩, hn, rfl⟩ := Option.map_eq_some_iff.mp hstep
      refine ⟨_, ?_, (h.setNode k n).send accepts ps⟩
      rw [if_pos hk, h.node, hn]
      rfl

/-- The dispatches under way are under way on the other side. -/
lemma outstanding_le (h : Delayed s t) (numHosts : ℤ) :
    s.outstanding numHosts ≤ t.outstanding numHosts := by
  rw [Sys.outstanding, Sys.outstanding, h.node]
  exact add_le_add_left
    (Multiset.filterMap_le_filterMap Packet.dispatch (Multiset.coe_le.mpr h.flight)) _

end Delayed

/-! ### Runs -/

section Runs

variable {numHosts : ℤ} {ips : ℤ → Bytes} {G : Master → MasterAct → Prop}

/-- Any network is simulated by the lossless one, under a guard on the master. -/
lemma delayed_simulates (numHosts : ℤ) (accepts : Network) (ips : ℤ → Bytes)
    (G : Master → MasterAct → Prop) :
    (clusterMachine numHosts accepts ips).Simulates (clusterMachine numHosts lossless ips)
      (OnMaster numHosts G) (OnMaster numHosts G) Delayed := by
  intro s t l s' h hg hs
  obtain ⟨t', ht, h'⟩ := h.step hs
  exact ⟨t', fun a ha => h.master ▸ hg a ha, ht, h'⟩

/-- A reached state, with what was lost in flight. -/
lemma exists_delayed {accepts : Network} {s : Sys}
    (h : (clusterMachine numHosts accepts ips).Reach (OnMaster numHosts G) s) :
    ∃ t, (clusterMachine numHosts lossless ips).Reach (OnMaster numHosts G) t ∧ Delayed s t :=
  (delayed_simulates numHosts accepts ips G).reach (.refl _) h

/-- What comes after a state comes after the delayed one. -/
lemma delayed_run {accepts : Network} {s s' : Sys} {ls : List SysAct}
    (h : (clusterMachine numHosts accepts ips).Reach (OnMaster numHosts G) s)
    (hguard : (clusterMachine numHosts accepts ips).GuardedRun (OnMaster numHosts G) ls s)
    (hrun : (clusterMachine numHosts accepts ips).run ls s = some s') :
    ∃ t t', (clusterMachine numHosts lossless ips).Reach (OnMaster numHosts G) t ∧
      (clusterMachine numHosts lossless ips).GuardedRun (OnMaster numHosts G) ls t ∧
      (clusterMachine numHosts lossless ips).run ls t = some t' ∧
      Delayed s t ∧ Delayed s' t' := by
  obtain ⟨t, ht, hdelay⟩ := exists_delayed h
  obtain ⟨t', hguard', hrun', hdelay'⟩ :=
    (delayed_simulates numHosts accepts ips G).run hdelay hguard hrun
  exact ⟨t, t', ht, hguard', hrun', hdelay, hdelay'⟩

/-- **Loss is delay.** Every run over any network is, step by step, a run over the lossless
network that ends with the same master and the same nodes: what was lost is in flight there and
is never delivered.  Whatever is asked of what the master handles, the second run meets it if
the first does. -/
lemma loss_is_delay {accepts : Network} {s : Sys} {ls : List SysAct}
    (hrun : (clusterMachine numHosts accepts ips).run ls (.init ips) = some s) :
    ∃ t, (clusterMachine numHosts lossless ips).run ls (.init ips) = some t ∧ Delayed s t ∧
      ∀ G : Master → MasterAct → Prop,
        (clusterMachine numHosts accepts ips).GuardedRun (OnMaster numHosts G) ls (.init ips) →
        (clusterMachine numHosts lossless ips).GuardedRun (OnMaster numHosts G) ls
          (.init ips) := by
  have hsim : (clusterMachine numHosts accepts ips).Simulates
      (clusterMachine numHosts lossless ips) Machine.always Machine.always Delayed := by
    intro s t l s' h _ hs
    obtain ⟨t', ht, h'⟩ := h.step hs
    exact ⟨t', trivial, ht, h'⟩
  obtain ⟨t, -, ht, hdelay⟩ := hsim.run (.refl _) (Machine.guardedRun_always ..) hrun
  refine ⟨t, ht, hdelay, fun G hguard => ?_⟩
  obtain ⟨t', hguard', -, -⟩ :=
    (delayed_simulates numHosts accepts ips G).run (.refl _) hguard hrun
  exact hguard'

end Runs

end Epbs
