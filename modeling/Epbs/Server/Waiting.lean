/-
The waiting loop and the dispatch loops of `job_queue_pop`, without
interference inside a loop round.

* `hostIds`: the nodes `1, …, num_hosts` in the order of the loops, `freeNodes`
  those that are FREE;
* `scanFree`, `waitLoop`: one scan, and the loop with the completions that fall
  between its rounds; the count is not reset from one round to the next;
* `dispatchLoop_eq`: the nested loops give the job to the first `n` FREE nodes,
  or to all of them if there are fewer;
* `waitLoop_enough_iff`: when the exit of the waiting loop means that enough
  nodes are FREE: exactly when scans that each come short never add up to
  enough.
-/
import Epbs.Server.Queue
import Epbs.Server.Messages

namespace Epbs

/-! ### The nodes of the loops -/

/-- The nodes `1, …, num_hosts`, in the order the loops visit them. -/
def hostIds (numHosts : ℤ) : List ℤ := (List.range numHosts.toNat).map fun i : ℕ => (i : ℤ) + 1

@[simp] lemma mem_hostIds {numHosts k : ℤ} : k ∈ hostIds numHosts ↔ 1 ≤ k ∧ k ≤ numHosts := by
  rw [hostIds, List.mem_map]
  constructor
  · rintro ⟨i, hi, rfl⟩
    have := List.mem_range.mp hi
    omega
  · rintro ⟨h1, h2⟩
    exact ⟨(k - 1).toNat, List.mem_range.mpr (by omega), by omega⟩

lemma nodup_hostIds (numHosts : ℤ) : (hostIds numHosts).Nodup :=
  List.nodup_range.map fun i j h => by simpa using h

/-- The FREE nodes, in order. -/
def freeNodes (numHosts : ℤ) (pcstat : ℤ → HostStat) : List ℤ :=
  (hostIds numHosts).filter fun k => pcstat k = .free

lemma nodup_freeNodes (numHosts : ℤ) (pcstat : ℤ → HostStat) :
    (freeNodes numHosts pcstat).Nodup :=
  (nodup_hostIds numHosts).filter _

/-! ### The waiting loop -/

/-- The body of the scan: `if(pcstat[i] == HOST_STAT_FREE) count++`. -/
def countNode (pcstat : ℤ → HostStat) (count i : ℤ) : ℤ :=
  if pcstat i = .free then count + 1 else count

/-- One scan of the waiting loop: `for(i=1;i<=num_hosts;i++)`. -/
def scanFree (numHosts : ℤ) (pcstat : ℤ → HostStat) (count : ℤ) : ℤ :=
  (hostIds numHosts).foldl (countNode pcstat) count

/-- A scan adds the number of FREE nodes. -/
lemma scanFree_eq (numHosts : ℤ) (pcstat : ℤ → HostStat) (count : ℤ) :
    scanFree numHosts pcstat count = count + (freeNodes numHosts pcstat).length := by
  rw [scanFree, freeNodes]
  induction hostIds numHosts generalizing count with
  | nil => simp
  | cons i is ih =>
      rw [List.foldl_cons, ih]
      by_cases hfree : pcstat i = .free
      · simp only [countNode, hfree, if_true, decide_true, List.filter_cons_of_pos,
          List.length_cons]
        push_cast
        ring
      · simp [countNode, hfree]

/-- A completion: `pcstat[src] = HOST_STAT_FREE`. -/
@[simps -fullyApplied]
def Server.release (s : Server) (k : ℤ) : Server :=
  { s with pcstat := Function.update s.pcstat k .free }

/-- The completions between two rounds. -/
def Server.releaseAll (s : Server) (ks : List ℤ) : Server := ks.foldl Server.release s

/-- **The waiting loop**, from a count on: the state in which it exits with
`get_enough_res = true`, for the completions between its rounds; `none` if it is
still waiting after the last of them.  `count = 0` stands before the loop, the
reset inside it is commented out. -/
def waitLoop (numHosts numReqNodes : ℤ) : List (List ℤ) → Server → ℤ → Option Server
  | [], s, count =>
      if scanFree numHosts s.pcstat count < numReqNodes then none else some s
  | ks :: gaps, s, count =>
      if scanFree numHosts s.pcstat count < numReqNodes then
        waitLoop numHosts numReqNodes gaps (s.releaseAll ks) (scanFree numHosts s.pcstat count)
      else some s

/-- The number of FREE nodes at each scan, if the loop ran to the end. -/
def scans (numHosts : ℤ) : List (List ℤ) → Server → List ℤ
  | [], s => [((freeNodes numHosts s.pcstat).length : ℤ)]
  | ks :: gaps, s => (freeNodes numHosts s.pcstat).length :: scans numHosts gaps (s.releaseAll ks)

/-- Scans that each find too few nodes never add up to enough. -/
def NeverAddUp (numReqNodes count : ℤ) (counts : List ℤ) : Prop :=
  ∀ pre, pre <+: counts → pre ≠ [] → (∀ c ∈ pre, c < numReqNodes) →
    count + pre.sum < numReqNodes

/-! ### The dispatch loops -/

/-- One assignment: `nodesstat[k] = job_id; pcstat[k] = HOST_STAT_BUSY`. -/
@[simps -fullyApplied]
def Server.assign (s : Server) (k jobId : ℤ) : Server :=
  { s with
    nodesstat := Function.update s.nodesstat k jobId
    pcstat := Function.update s.pcstat k .busy }

/-- **The dispatch loops**, `n` rounds of the outer one: each gives the job to
the first FREE node, if there is one. -/
def dispatchLoop (numHosts : ℤ) (pcomm : Bytes) (jobId : ℤ) (job : ℕ) :
    ℕ → Server → Server × List Packet
  | 0, s => (s, [])
  | n + 1, s =>
      match (hostIds numHosts).find? fun k => s.pcstat k = .free with
      | none => dispatchLoop numHosts pcomm jobId job n s
      | some k =>
          let rest := dispatchLoop numHosts pcomm jobId job n (s.assign k jobId)
          (rest.1, serverSingleJobSubmit serverMachineId k pcomm jobId job :: rest.2)

/-- `jobnodes[job_id] = num_req_nodes`. -/
@[simps -fullyApplied]
def Server.setJobnodes (s : Server) (jobId n : ℤ) : Server :=
  { s with jobnodes := Function.update s.jobnodes jobId n }

/-- What `job_queue_pop` does with a job once it got enough resources. -/
def placeJob (numHosts : ℤ) (j : PoppedJob) (job : ℕ) (s : Server) : Server × List Packet :=
  let r := dispatchLoop numHosts j.pcomm j.jobId job j.numReqNodes.toNat s
  (r.1.setJobnodes j.jobId j.numReqNodes, r.2)

/-- The assignments of a job to a list of nodes. -/
def Server.assignAll (s : Server) (ks : List ℤ) (jobId : ℤ) : Server :=
  ks.foldl (fun s k => s.assign k jobId) s

/-- Taking the first FREE node leaves the others. -/
lemma freeNodes_assign {numHosts k jobId : ℤ} {ks : List ℤ} {s : Server}
    (h : freeNodes numHosts s.pcstat = k :: ks) :
    freeNodes numHosts (s.assign k jobId).pcstat = ks := by
  have hnodup : (k :: ks).Nodup := h ▸ nodup_freeNodes numHosts s.pcstat
  have hsplit : freeNodes numHosts (s.assign k jobId).pcstat
      = (freeNodes numHosts s.pcstat).filter fun i => i ≠ k := by
    rw [freeNodes, freeNodes, List.filter_filter]
    refine List.filter_congr fun i _ => ?_
    by_cases hik : i = k <;> simp [Server.assign, hik]
  rw [hsplit, h, List.filter_cons_of_neg (by simp), List.filter_eq_self]
  intro i hi
  exact decide_eq_true fun hik => (List.nodup_cons.mp hnodup).1 (hik ▸ hi)

/-- **The dispatch loops** give the job to the first `n` FREE nodes, in order,
or to all of them if there are fewer. -/
lemma dispatchLoop_eq (numHosts : ℤ) (pcomm : Bytes) (jobId : ℤ) (job n : ℕ) (s : Server) :
    dispatchLoop numHosts pcomm jobId job n s =
      (s.assignAll ((freeNodes numHosts s.pcstat).take n) jobId,
        ((freeNodes numHosts s.pcstat).take n).map fun k =>
          serverSingleJobSubmit serverMachineId k pcomm jobId job) := by
  induction n generalizing s with
  | zero => rfl
  | succ n ih =>
      have hfind : ((hostIds numHosts).find? fun k => s.pcstat k = .free)
          = (freeNodes numHosts s.pcstat).head? := by
        rw [freeNodes, List.head?_filter]
      rw [dispatchLoop, hfind]
      cases hfree : freeNodes numHosts s.pcstat with
      | nil =>
          simp only [List.head?_nil, ih, hfree, List.take_nil]
      | cons k ks =>
          simp only [List.head?_cons, ih, freeNodes_assign hfree, List.take_succ_cons,
            List.map_cons]
          rfl

/-! ### When the exit of the waiting loop is right -/

/-- **The guard's promise** at the exit of the waiting loop: `num_req_nodes` of
the nodes are FREE, the job goes to that many distinct FREE nodes, and the value
is the one then in `jobnodes`. -/
structure EnoughNodes (numHosts : ℤ) (j : PoppedJob) (job : ℕ) (s : Server) : Prop where
  enough : j.numReqNodes ≤ (freeNodes numHosts s.pcstat).length
  count : ((placeJob numHosts j job s).2.map (·.dest.host)).length = j.numReqNodes.toNat
  distinct : ((placeJob numHosts j job s).2.map (·.dest.host)).Nodup
  free : ∀ k ∈ (placeJob numHosts j job s).2.map (·.dest.host),
    1 ≤ k ∧ k ≤ numHosts ∧ s.pcstat k = .free
  jobnodes : (placeJob numHosts j job s).1.jobnodes j.jobId = j.numReqNodes

/-- The nodes a job is placed on. -/
lemma hosts_placeJob (numHosts : ℤ) (j : PoppedJob) (job : ℕ) (s : Server) :
    (placeJob numHosts j job s).2.map (·.dest.host)
      = (freeNodes numHosts s.pcstat).take j.numReqNodes.toNat := by
  rw [placeJob, dispatchLoop_eq, List.map_map]
  exact (List.map_congr_left fun k _ => rfl).trans (List.map_id _)

/-- Enough FREE nodes at the exit are all it takes. -/
lemma enoughNodes_iff {numHosts : ℤ} {j : PoppedJob} {job : ℕ} {s : Server} :
    EnoughNodes numHosts j job s ↔ j.numReqNodes ≤ (freeNodes numHosts s.pcstat).length := by
  refine ⟨fun h => h.enough, fun h => ⟨h, ?_, ?_, ?_, ?_⟩⟩
  · rw [hosts_placeJob, List.length_take]
    omega
  · rw [hosts_placeJob]
    exact (nodup_freeNodes numHosts s.pcstat).take
  · intro k hk
    rw [hosts_placeJob] at hk
    have hmem := List.mem_filter.mp (List.mem_of_mem_take hk)
    have hid := mem_hostIds.mp hmem.1
    exact ⟨hid.1, hid.2, of_decide_eq_true hmem.2⟩
  · exact Function.update_self ..

/-- One more scan: it may exit only with enough, and goes on with the sum. -/
lemma neverAddUp_cons {n count c : ℤ} {counts : List ℤ} :
    NeverAddUp n count (c :: counts) ↔
      (n ≤ c ∨ count + c < n ∧ NeverAddUp n (count + c) counts) := by
  constructor
  · intro h
    by_cases hc : n ≤ c
    · exact Or.inl hc
    · have hlt : c < n := by omega
      refine Or.inr ⟨?_, fun pre hpre _ hall => ?_⟩
      · have := h [c] (by simp) (by simp) (by simpa using hlt)
        simpa using this
      · have := h (c :: pre) (List.cons_prefix_cons.mpr ⟨rfl, hpre⟩) (by simp)
          (List.forall_mem_cons.mpr ⟨hlt, hall⟩)
        rw [List.sum_cons] at this
        omega
  · rintro h pre hpre hne hall
    cases pre with
    | nil => exact absurd rfl hne
    | cons d pre =>
        obtain ⟨rfl, hpre'⟩ := List.cons_prefix_cons.mp hpre
        obtain ⟨hd, hall⟩ := List.forall_mem_cons.mp hall
        rcases h with hc | ⟨hlt, hrest⟩
        · omega
        · by_cases hnil : pre = []
          · subst hnil
            simpa using hlt
          · have := hrest pre hpre' hnil hall
            rw [List.sum_cons]
            omega

/-- The exit of the waiting loop from a count on. -/
lemma waitLoop_exit_iff {numHosts n : ℤ} (gaps : List (List ℤ)) (s : Server) (count : ℤ)
    (hcount : 0 ≤ count) :
    (∀ s', waitLoop numHosts n gaps s count = some s' →
      n ≤ (freeNodes numHosts s'.pcstat).length) ↔
    NeverAddUp n count (scans numHosts gaps s) := by
  induction gaps generalizing s count with
  | nil =>
      rw [scans, neverAddUp_cons, waitLoop, scanFree_eq]
      have hnil : NeverAddUp n (count + (freeNodes numHosts s.pcstat).length) [] :=
        fun pre hpre hne => absurd (List.prefix_nil.mp hpre) hne
      split_ifs with hlt
      · simp [hlt, hnil]
      · simp [hlt]
  | cons ks gaps ih =>
      rw [scans, neverAddUp_cons, waitLoop, scanFree_eq]
      split_ifs with hlt
      · rw [ih _ _ (by omega)]
        constructor
        · exact fun h => Or.inr ⟨hlt, h⟩
        · rintro (h | h)
          · omega
          · exact h.2
      · simp [hlt]

/-- **The enough-nodes guard**: the loop only exits with enough FREE nodes, and
the job then goes to exactly as many distinct nodes as `jobnodes` says, if and
only if scans that each come short never add up to `num_req_nodes`. -/
theorem waitLoop_enough_iff (numHosts : ℤ) (j : PoppedJob) (job : ℕ) (gaps : List (List ℤ))
    (s : Server) :
    (∀ s', waitLoop numHosts j.numReqNodes gaps s 0 = some s' → EnoughNodes numHosts j job s') ↔
      NeverAddUp j.numReqNodes 0 (scans numHosts gaps s) := by
  simp only [enoughNodes_iff]
  exact waitLoop_exit_iff gaps s 0 le_rfl

/-- A job for two nodes while node 1 is FREE and node 2 BUSY: two scans of one
FREE node each end the loop. -/
theorem waitLoop_adds_up : ¬ ∀ (gaps : List (List ℤ)) (s s' : Server),
    waitLoop 2 2 gaps s 0 = some s' → EnoughNodes 2 ⟨0, 0, [97], 2⟩ 0 s' := by
  intro hall
  have h := (hall [[]] (((configure fun _ => []).release 1).assign 2 7) _ rfl).enough
  revert h
  decide +kernel

end Epbs
