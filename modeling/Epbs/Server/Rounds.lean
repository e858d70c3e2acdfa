/-
The loops of `job_queue_pop` step by step: what the pop thread does when no other
thread comes in between is what `scanFree`, `dispatchLoop` and `placeJob` compute.

* `PopRun`: steps of the pop thread, one after the other, with what they send;
* `scan_run`, `waitRound_run`: a scan, and a round of the waiting loop;
* `dispatchRound_run`, `dispatch_run`: a round of the dispatch loops, and all of them;
* `placeJob_run`: from the exit of the waiting loop to the top of `while(true)`;
* `Greedy`, `dispatch_greedy`: the loops take the lowest FREE nodes, as many as the job
  asks for or as there are.
-/
import Epbs.Server.Master

namespace Epbs

/-- Steps of the pop thread with no other thread in between, and what they send. -/
inductive PopRun (numHosts now : ℤ) : Master → Master → List Packet → Prop
  | refl (m : Master) : PopRun numHosts now m m []
  | step {m m' m'' : Master} {ps qs : List Packet}
      (hstep : popStep numHosts now m = some (m', ps)) (hrun : PopRun numHosts now m' m'' qs) :
      PopRun numHosts now m m'' (ps ++ qs)

namespace PopRun

variable {numHosts now : ℤ} {m m' m'' : Master} {ps qs : List Packet}

protected lemma trans (h : PopRun numHosts now m m' ps) (h' : PopRun numHosts now m' m'' qs) :
    PopRun numHosts now m m'' (ps ++ qs) := by
  induction h with
  | refl m => exact h'
  | step hstep hrun ih =>
      rw [List.append_assoc]
      exact .step hstep (ih h')

lemma single (hstep : popStep numHosts now m = some (m', ps)) : PopRun numHosts now m m' ps := by
  have hrun := PopRun.step hstep (.refl m')
  rwa [List.append_nil] at hrun

end PopRun

variable {numHosts : ℤ} {m : Master} {j : PoppedJob} {job : ℕ}

/-! ### The waiting loop -/

/-- A node of the loops, by the number of nodes before it. -/
lemma eq_of_hostIds {pre ks : List ℤ} {k : ℤ} (h : hostIds numHosts = pre ++ k :: ks) :
    k = pre.length + 1 := by
  have hlt : pre.length < (hostIds numHosts).length := by simp [h]
  have hget : (hostIds numHosts)[pre.length] = k := by simp [h]
  rw [← hget]
  simp [hostIds]

/-- All nodes of the loops were visited. -/
lemma length_hostIds (hhosts : 0 ≤ numHosts) : ((hostIds numHosts).length : ℤ) = numHosts := by
  simp [hostIds, hhosts]

/-- **A scan** from the node after `pre` on adds the FREE nodes that are left to the count. -/
lemma scan_run (now : ℤ) (hbound : numHosts < maxNumHosts) {pre ks : List ℤ}
    (hks : hostIds numHosts = pre ++ ks) {count : ℤ}
    (hpc : m.pop = .wait j job count (pre.length + 1)) :
    PopRun numHosts now m
      { m with
        pop := .wait j job (ks.foldl (countNode m.srv.pcstat) count)
          ((hostIds numHosts).length + 1) } [] := by
  induction ks generalizing pre m count with
  | nil =>
      rw [List.append_nil] at hks
      rw [hks, List.foldl_nil, ← hpc]
      exact .refl m
  | cons k ks ih =>
      have hk := eq_of_hostIds hks
      have hmem : 1 ≤ k ∧ k ≤ numHosts := mem_hostIds.mp (by simp [hks])
      have hstep : popStep numHosts now m =
          some ({ m with pop := .wait j job (countNode m.srv.pcstat count k) (k + 1) }, []) := by
        have hin : inTable maxNumHosts k := ⟨by omega, by omega⟩
        rw [popStep, hpc, ← hk]
        simp only [hmem.2, hin, if_true]
      have hks' : hostIds numHosts = (pre ++ [k]) ++ ks := by simp [hks]
      refine .step hstep (ih (m := { m with pop := _ }) hks' ?_)
      simp [hk]

/-- **A round of the waiting loop** goes on with the count of its scan, or ends it. -/
lemma waitRound_run (now : ℤ) (hhosts : 0 ≤ numHosts) (hbound : numHosts < maxNumHosts) {count : ℤ}
    (hpc : m.pop = .wait j job count 1) :
    PopRun numHosts now m
      (if scanFree numHosts m.srv.pcstat count < j.numReqNodes then
        { m with pop := .wait j job (scanFree numHosts m.srv.pcstat count) 1 }
      else { m with srv := m.srv.stamp j.slot now, pop := .dispatch j job 1 1 }) [] := by
  have hscan := scan_run now hbound (List.nil_append _).symm hpc
  refine hscan.trans (.single ?_)
  rw [popStep, length_hostIds hhosts, ← scanFree]
  have hend : ¬numHosts + 1 ≤ numHosts := by omega
  simp only [if_neg hend]
  split_ifs <;> rfl

/-! ### The dispatch loops -/

/-- **A round of the dispatch loops**, from the node after `pre` on: the job goes to the
first FREE node, if there is one. -/
lemma dispatchRound_run (now : ℤ) (hbound : numHosts < maxNumHosts)
    {pre ks : List ℤ} (hks : hostIds numHosts = pre ++ ks) {i : ℤ} (hi : i ≤ j.numReqNodes)
    (hpc : m.pop = .dispatch j job i (pre.length + 1)) :
    match ks.find? fun k => m.srv.pcstat k = .free with
    | none => PopRun numHosts now m { m with pop := .dispatch j job (i + 1) 1 } []
    | some k =>
        PopRun numHosts now m
          { m with
            srv := m.srv.assign k j.jobId
            pop := .dispatch j job (i + 1) 1
            log := .assigned job k :: m.log }
          [serverSingleJobSubmit serverMachineId k j.pcomm j.jobId job] := by
  induction ks generalizing pre m with
  | nil =>
      -- no host is left: the round ends without a node, and the job gets one less
      have hend : ¬(pre.length + 1 : ℤ) ≤ numHosts := by
        have hlen : pre.length = numHosts.toNat := by
          rw [← List.append_nil pre, ← hks, hostIds, List.length_map, List.length_range]
        omega
      refine .single ?_
      rw [popStep, hpc]
      simp only [if_pos hi, if_neg hend]
  | cons k ks ih =>
      have hk := eq_of_hostIds hks
      have hmem : 1 ≤ k ∧ k ≤ numHosts := mem_hostIds.mp (by simp [hks])
      have hin : inTable maxNumHosts k := ⟨by omega, by omega⟩
      by_cases hfree : m.srv.pcstat k = .free
      · rw [List.find?_cons_of_pos (by simpa using hfree)]
        refine .single ?_
        rw [popStep, hpc, ← hk]
        simp only [if_pos hi, if_pos hmem.2, if_pos hin, if_pos hfree]
      · rw [List.find?_cons_of_neg (by simpa using hfree)]
        have hstep : popStep numHosts now m =
            some ({ m with pop := .dispatch j job i (k + 1) }, []) := by
          rw [popStep, hpc, ← hk]
          simp only [if_pos hi, if_pos hmem.2, if_pos hin, if_neg hfree]
        have hks' : hostIds numHosts = (pre ++ [k]) ++ ks := by simp [hks]
        have hrest := ih (m := { m with pop := .dispatch j job i (k + 1) }) hks' (by simp [hk])
        revert hrest
        cases ks.find? fun k => m.srv.pcstat k = .free with
        | none => exact fun hrest => .step hstep hrest
        | some k' => exact fun hrest => .step hstep hrest

/-- The history of the assignments that a list of submit messages stands for. -/
def assignments (job : ℕ) (ps : List Packet) : List Event :=
  (ps.map fun p => Event.assigned job p.dest.host).reverse

/-- **The dispatch loops**, the last `n` rounds of the outer one. -/
lemma dispatch_run (now : ℤ) (hbound : numHosts < maxNumHosts) (n : ℕ)
    {i : ℤ} (hn : i + n = j.numReqNodes + 1) (hpc : m.pop = .dispatch j job i 1) :
    let r := dispatchLoop numHosts j.pcomm j.jobId job n m.srv
    PopRun numHosts now m
      { m with
        srv := r.1
        pop := .dispatch j job (j.numReqNodes + 1) 1
        log := assignments job r.2 ++ m.log } r.2 := by
  induction n generalizing m i with
  | zero =>
      have hi : i = j.numReqNodes + 1 := by simpa using hn
      rw [← hi, ← hpc]
      exact .refl m
  | succ n ih =>
      have hi : i ≤ j.numReqNodes := by omega
      have hn' : i + 1 + n = j.numReqNodes + 1 := by
        push_cast at hn
        omega
      have hround := dispatchRound_run now hbound (List.nil_append _).symm hi hpc
      simp only [dispatchLoop]
      revert hround
      cases (hostIds numHosts).find? fun k => m.srv.pcstat k = .free with
      | none =>
          intro hround
          exact hround.trans (ih (m := { m with pop := .dispatch j job (i + 1) 1 }) hn' rfl)
      | some k =>
          intro hround
          have hrest := hround.trans (ih hn' rfl)
          simpa [assignments] using hrest

/-- **A job is placed** in the steps from the exit of the waiting loop to the top of
`while(true)`. -/
theorem placeJob_run (now : ℤ) (hbound : numHosts < maxNumHosts)
    (hreq : 0 ≤ j.numReqNodes) (hid : inTable maxJobQueue j.jobId)
    (hpc : m.pop = .dispatch j job 1 1) :
    let r := placeJob numHosts j job m.srv
    PopRun numHosts now m
      { m with srv := r.1, pop := .idle, log := assignments job r.2 ++ m.log } r.2 := by
  have hn : (1 : ℤ) + j.numReqNodes.toNat = j.numReqNodes + 1 := by omega
  have hdispatch := dispatch_run now hbound _ hn hpc
  intro r
  suffices hlast : PopRun numHosts now m
      { m with srv := r.1, pop := .idle, log := assignments job r.2 ++ m.log } (r.2 ++ []) by
    rwa [List.append_nil] at hlast
  refine hdispatch.trans (.single ?_)
  have hend : ¬j.numReqNodes + 1 ≤ j.numReqNodes := by omega
  simp only [popStep, if_neg hend, if_pos hid]
  rfl

/-! ### The nodes that are taken -/

/-- Between the tables `s` and `s'` the job was given to `nodes`, with the messages `ps`:
to the lowest FREE nodes, as many as it asks for, or all of them if they are fewer. -/
structure Greedy (numHosts : ℤ) (j : PoppedJob) (job : ℕ) (s s' : Server) (nodes : List ℤ)
    (ps : List Packet) : Prop where
  count : nodes.length = min j.numReqNodes.toNat (freeNodes numHosts s.pcstat).length
  ascending : nodes.Pairwise (· < ·)
  free : ∀ k ∈ nodes, 1 ≤ k ∧ k ≤ numHosts ∧ s.pcstat k = .free
  lowest : ∀ k ∈ nodes, ∀ k', 1 ≤ k' → k' ≤ numHosts → s.pcstat k' = .free → k' ∉ nodes → k < k'
  pcstat : ∀ k, s'.pcstat k = if k ∈ nodes then .busy else s.pcstat k
  nodesstat : ∀ k, s'.nodesstat k = if k ∈ nodes then j.jobId else s.nodesstat k
  sent : ps = nodes.map fun k => serverSingleJobSubmit serverMachineId k j.pcomm j.jobId job

/-- The loops visit the nodes in ascending order. -/
lemma pairwise_hostIds (numHosts : ℤ) : (hostIds numHosts).Pairwise (· < ·) := by
  rw [hostIds, List.pairwise_map]
  exact List.pairwise_lt_range.imp fun hlt => by omega

/-- What the assignments of a job leave of the two node tables. -/
lemma assignAll_tables (nodes : List ℤ) (jobId : ℤ) (s : Server) (k : ℤ) :
    (s.assignAll nodes jobId).pcstat k = (if k ∈ nodes then .busy else s.pcstat k) ∧
      (s.assignAll nodes jobId).nodesstat k = if k ∈ nodes then jobId else s.nodesstat k := by
  induction nodes generalizing s with
  | nil => simp [Server.assignAll]
  | cons k' nodes ih =>
      obtain ⟨hpcstat, hnodesstat⟩ := ih (s.assign k' jobId)
      rw [Server.assignAll, List.foldl_cons, ← Server.assignAll, hpcstat, hnodesstat,
        Server.assign_pcstat, Server.assign_nodesstat, Function.update_apply,
        Function.update_apply]
      by_cases hk : k = k'
      · simp [hk]
      · simp [hk]

/-- The first `n` FREE nodes are the lowest. -/
lemma greedy_assignAll (numHosts : ℤ) (j : PoppedJob) (job : ℕ) (s : Server) :
    Greedy numHosts j job s
      (s.assignAll ((freeNodes numHosts s.pcstat).take j.numReqNodes.toNat) j.jobId)
      ((freeNodes numHosts s.pcstat).take j.numReqNodes.toNat)
      (((freeNodes numHosts s.pcstat).take j.numReqNodes.toNat).map fun k =>
        serverSingleJobSubmit serverMachineId k j.pcomm j.jobId job) := by
  have hsorted : (freeNodes numHosts s.pcstat).Pairwise (· < ·) :=
    (pairwise_hostIds numHosts).filter _
  have hmem : ∀ k, k ∈ freeNodes numHosts s.pcstat ↔
      (1 ≤ k ∧ k ≤ numHosts) ∧ s.pcstat k = .free := by
    intro k
    rw [freeNodes, List.mem_filter, mem_hostIds, decide_eq_true_eq]
  set n := j.numReqNodes.toNat
  refine ⟨List.length_take, hsorted.take, fun k hk => ?_, fun k hk k' h1 h2 hfree hnot => ?_,
    fun k => (assignAll_tables _ j.jobId s k).1, fun k => (assignAll_tables _ j.jobId s k).2, rfl⟩
  · obtain ⟨⟨h1, h2⟩, hfree⟩ := (hmem k).mp (List.mem_of_mem_take hk)
    exact ⟨h1, h2, hfree⟩
  · -- a FREE node that is not taken comes later in the list
    have hk' := (hmem k').mpr ⟨⟨h1, h2⟩, hfree⟩
    rw [← List.take_append_drop n (freeNodes numHosts s.pcstat)] at hsorted hk'
    have hlater := (List.mem_append.mp hk').resolve_left hnot
    exact (List.pairwise_append.mp hsorted).2.2 k hk k' hlater

/-- **The dispatch loops are greedy**: with no other thread in between they run to their
end, and have given the job to the lowest FREE nodes. -/
theorem dispatch_greedy (now : ℤ) (hbound : numHosts < maxNumHosts) (hreq : 0 ≤ j.numReqNodes)
    (hpc : m.pop = .dispatch j job 1 1) :
    ∃ srv log nodes ps,
      PopRun numHosts now m
        { m with srv := srv, pop := .dispatch j job (j.numReqNodes + 1) 1, log := log } ps ∧
      Greedy numHosts j job m.srv srv nodes ps := by
  have hn : (1 : ℤ) + j.numReqNodes.toNat = j.numReqNodes + 1 := by omega
  have hrun := dispatch_run now hbound _ hn hpc
  rw [dispatchLoop_eq] at hrun
  exact ⟨_, _, _, _, hrun, greedy_assignAll numHosts j job m.srv⟩

/-- The pop thread with a job for two nodes, where all are FREE. -/
def readyToDispatch : Master :=
  { Master.init fun _ => [] with
    srv := (configure fun _ => []).freeAll
    pop := .dispatch ⟨0, 0, [97], 2⟩ 0 1 1 }

theorem dispatch_greedy_two : ∃ srv log nodes ps,
    PopRun 3 0 readyToDispatch
      { readyToDispatch with srv := srv, pop := .dispatch ⟨0, 0, [97], 2⟩ 0 3 1, log := log } ps ∧
    Greedy 3 ⟨0, 0, [97], 2⟩ 0 readyToDispatch.srv srv nodes ps :=
  dispatch_greedy 0 (by decide) (by decide) rfl

end Epbs
