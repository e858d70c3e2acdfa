/-
What clients are shown of the nodes while the cluster runs.

* `dispatchesTo_le`: over any network a node has at most one dispatch under way;
* `busy_of_outstanding`, `exists_outstanding_of_busy`: it is BUSY while it has one, and only
  then if no message is lost;
* `ofHosts_of_busy`: a BUSY node is a node of the host list;
* `shownStates`: what the client shows for a machine id, which it checks first;
* `shown_states_of_nodes`: the rows that `client_query_host_status_0` shows, against the
  dispatches under way.
-/
import Epbs.Cluster.Cancel
import Epbs.Cluster.Drain
import Epbs.Wire.HostReplies

namespace Epbs

open Words

section Nodes

variable {numHosts : ℤ} {accepts : Network} {ips : ℤ → Bytes} {s : Sys}

/-- Over any network a node is BUSY while it has a dispatch under way, and it has one at most. -/
lemma dispatchesTo_le (h : (clusterMachine numHosts accepts ips).Reach Machine.always s)
    (k : ℤ) : dispatchesTo (s.outstanding numHosts) k
      ≤ if s.master.srv.pcstat k = .busy then 1 else 0 := by
  obtain ⟨t, ht, hdelay⟩ := exists_delayed (G := fun _ _ => True)
    (h.mono fun _ _ _ _ _ => trivial)
  have hbusy : dispatchesTo (t.outstanding numHosts) k
      = if t.master.srv.pcstat k = .busy then 1 else 0 :=
    (exclusive_of_reach (ledger_of_cluster ht)).busy k
  rw [hdelay.master] at hbusy
  rw [← hbusy]
  exact Multiset.countP_le_of_le _ (hdelay.outstanding_le numHosts)

/-- A node is BUSY while it has a dispatch under way. -/
lemma busy_of_outstanding (h : (clusterMachine numHosts accepts ips).Reach Machine.always s)
    {d : Dispatch} (hd : d ∈ s.outstanding numHosts) :
    s.master.srv.pcstat d.node = .busy := by
  have hle := dispatchesTo_le h d.node
  have hone : 0 < dispatchesTo (s.outstanding numHosts) d.node :=
    Multiset.countP_pos.mpr ⟨d, hd, rfl⟩
  by_contra hfree
  rw [if_neg hfree] at hle
  omega

/-- If no message is lost a BUSY node has a dispatch under way. -/
lemma exists_outstanding_of_busy
    (h : (clusterMachine numHosts lossless ips).Reach Machine.always s) {k : ℤ}
    (hbusy : s.master.srv.pcstat k = .busy) : ∃ d ∈ s.outstanding numHosts, d.node = k := by
  have hled := ledger_of_cluster (G := fun _ _ => True) (h.mono fun _ _ _ _ _ => trivial)
  have hone : dispatchesTo (s.outstanding numHosts) k
      = if s.master.srv.pcstat k = .busy then 1 else 0 := (exclusive_of_reach hled).busy k
  rw [if_pos hbusy] at hone
  have hsome : 0 < dispatchesTo (s.outstanding numHosts) k := by
    rw [hone]
    exact Nat.one_pos
  exact Multiset.countP_pos.mp hsome

/-- A BUSY node is a node of the host list. -/
lemma ofHosts_of_busy (h : (clusterMachine numHosts accepts ips).Reach Machine.always s) {k : ℤ}
    (hbusy : s.master.srv.pcstat k = .busy) : 1 ≤ k ∧ k ≤ numHosts := by
  obtain ⟨t, ht, hdelay⟩ := exists_delayed (G := fun _ _ => True)
    (h.mono fun _ _ _ _ _ => trivial)
  obtain ⟨d, hd, rfl⟩ := exists_outstanding_of_busy (ht.mono fun _ _ _ => trivial)
    (hdelay.master ▸ hbusy)
  exact (inHosts_of_reach (ledger_of_cluster ht)).hosts d hd

end Nodes

/-- **`client_query_host_status_0`** for a machine id from one on: an id above `num_hosts` is
refused, and nothing is shown. -/
def shownStates (p : HostQueryPath) (numHosts : NumHosts) (machineId : CInt) (s : Server) :
    Option (List ℤ) :=
  if machineId.1 < 0 ∨ (numHosts.1 : ℤ) < machineId.1 then none
  else queryStates p numHosts machineId s

/-- **No node at work is shown idle.** In every reachable state, over any network, a query for
the states of the nodes, with the id of a host, from any client and whatever was in the buffers,
shows `num_hosts` rows: the row 0 belongs to no node and is FREE once the pop thread runs; the
row of every node below `num_hosts` is FREE or BUSY from then on, and BUSY if a submit message
to the node, a job on it or a report from it is under way.  If no message is lost it is BUSY for
that reason only.  The last host has no row. -/
theorem shown_states_of_nodes {numHosts : NumHosts} {accepts : Network} {ips : ℤ → Bytes}
    {s : Sys} (h : (clusterMachine numHosts accepts ips).Reach Machine.always s)
    (p : HostQueryPath) {machineId : CInt} (hid : 1 ≤ machineId.1)
    (hhost : machineId.1 ≤ numHosts.1) :
    ∃ states : List ℤ, shownStates p numHosts machineId s.master.srv = some states ∧
      states.length = numHosts ∧
      (s.master.pop ≠ .start → states[0]? = some HostStat.free.code ∧
        ∀ k : ℕ, k < numHosts → states[k]? = some HostStat.free.code ∨
          states[k]? = some HostStat.busy.code) ∧
      (∀ k : ℕ, k < numHosts → (∃ d ∈ s.outstanding numHosts, d.node = k) →
        states[k]? = some HostStat.busy.code) ∧
      (accepts = lossless → ∀ k : ℕ, states[k]? = some HostStat.busy.code →
        ∃ d ∈ s.outstanding numHosts, d.node = k) := by
  have hn : numHosts.1 < 5 := numHosts.2.2
  have hpos := numHosts.2.1
  have hrow : ∀ k : ℕ, k < numHosts → ((List.range numHosts).map fun i : ℕ =>
      (s.master.srv.pcstat i).code)[k]? = some (s.master.srv.pcstat k).code := by
    intro k hk
    rw [List.getElem?_map, List.getElem?_range hk]
    rfl
  have htwo : TwoStates s.master :=
    cluster_invariant (twoStates_init ips) (fun _ _ _ _ hI _ hs => hI.step hs)
      (G := fun _ _ => True) (h.mono fun _ _ _ _ _ => trivial)
  have hshown : shownStates p numHosts machineId s.master.srv =
      some ((List.range numHosts).map fun i : ℕ => (s.master.srv.pcstat i).code) := by
    rw [shownStates, if_neg (by omega), queryStates_eq hid]
  refine ⟨_, hshown, by rw [List.length_map, List.length_range], fun hpc => ⟨?_, ?_⟩,
    ?_, ?_⟩
  · -- the dispatch loops start at host 1, so the entry 0 stays as `job_queue_pop` set it
    have hfree : s.master.srv.pcstat (0 : ℕ) = .free :=
      (htwo hpc (0 : ℕ) (by decide)).resolve_right fun hbusy => by
        have hlow := (ofHosts_of_busy h hbusy).1
        omega
    rw [hrow 0 hpos, hfree]
  · intro k hk
    rw [hrow k hk]
    have hin : inTable maxNumHosts (k : ℤ) := ⟨by omega, show (k : ℤ) < 5 by omega⟩
    rcases htwo hpc k hin with hfree | hbusy
    · exact .inl (by rw [hfree])
    · exact .inr (by rw [hbusy])
  · rintro k hk ⟨d, hd, hnode⟩
    rw [hrow k hk, ← hnode, busy_of_outstanding h hd]
  · rintro rfl k hbusy
    have hk : k < numHosts := by
      obtain ⟨hlt, -⟩ := List.getElem?_eq_some_iff.mp hbusy
      rwa [List.length_map, List.length_range] at hlt
    rw [hrow k hk, Option.some.injEq] at hbusy
    exact exists_outstanding_of_busy h (HostStat.code_injective hbusy)

/-- While the only job of a cluster of two hosts is on its way to the node 1, the rows are FREE
and BUSY. -/
theorem shown_states_of_nodes_assigned : ∃ s,
    (clusterMachine 2 lossless fun _ => []).Reach Machine.always s ∧
      ∃ states : List ℤ, shownStates zeroHostPath ⟨2, by decide⟩ CInt.one s.master.srv
        = some states ∧ states[0]? = some 2 ∧ states[1]? = some 1 := by
  have hrun : ((clusterMachine 2 lossless fun _ => []).run (assignOne ++ [.pop 0])
      (clusterMachine 2 lossless fun _ => []).init).any (fun s =>
        decide (s.flight.filterMap Packet.dispatch = [⟨0, 1, 0⟩]) &&
          s.master.pop.round.isSome) = true := by decide +kernel
  obtain ⟨s, hs, hp⟩ := Machine.exists_reach_of_run hrun
  rw [Bool.and_eq_true, decide_eq_true_eq] at hp
  have hstarted : s.master.pop ≠ .start := by
    intro hpc
    rw [hpc] at hp
    cases hp.2
  obtain ⟨states, hquery, -, hpc, hbusy, -⟩ := @shown_states_of_nodes
    ⟨2, by decide⟩ lossless (fun _ => []) s hs zeroHostPath CInt.one le_rfl
    (show (1 : ℤ) ≤ 2 by norm_num)
  refine ⟨s, hs, states, hquery, (hpc hstarted).1, hbusy 1 (by decide) ⟨⟨0, 1, 0⟩, ?_, rfl⟩⟩
  exact Multiset.mem_add.mpr (.inl (by rw [hp.1]; exact Multiset.mem_singleton_self _))

end Epbs
