/-
Batches of reports: what `job_queue_result_1` leaves after several of them.

* `JobReturn`: a complete report about a node and a job of the tables;
* `jobQueueResults`: reports handled one after the other;
* `BatchEffect`: the closed form, from which nodes and for which jobs the batch has
  FINISHED reports; `BatchEffect.result` is one report, `BatchEffect.append` two batches;
* `batchEffect_results`: a batch leaves its closed form;
* `jobQueueResults_perm`: the order of the batch does not matter.
-/
import Epbs.Server.Master

namespace Epbs

/-! ### Reports -/

/-- A complete report: its node is one of the nodes `1, …, num_hosts` and its job one of
the slots. -/
abbrev JobReturn (numHosts : ℤ) :=
  {msg : Msg // (1 ≤ msg.src ∧ msg.src ≤ numHosts) ∧ inTable maxJobQueue msg.m1}

/-- A FINISHED report about the job. -/
def Msg.finishes (jobId : ℤ) (msg : Msg) : Prop :=
  msg.m2 = JobStat.finished.code ∧ msg.m1 = jobId

/-- A FINISHED report of the node. -/
def Msg.frees (k : ℤ) (msg : Msg) : Prop :=
  msg.m2 = JobStat.finished.code ∧ msg.src = k

instance (jobId : ℤ) : DecidablePred (Msg.finishes jobId) :=
  fun _ => inferInstanceAs (Decidable (_ ∧ _))

instance (k : ℤ) : DecidablePred (Msg.frees k) :=
  fun _ => inferInstanceAs (Decidable (_ ∧ _))

/-- The number of FINISHED reports about the job. -/
def finishedReports (jobId : ℤ) (msgs : List Msg) : ℕ := msgs.countP fun msg => msg.finishes jobId

/-- Reports handled one after the other, each at its own time. -/
def jobQueueResults : List (ℤ × Msg) → Server → Option Server
  | [], s => some s
  | (now, msg) :: reports, s => (jobQueueResult1 now msg s).bind (jobQueueResults reports)

/-! ### The closed form -/

/-- What a batch of reports leaves: the nodes with a FINISHED report are FREE, each job
is counted down once for each of its FINISHED reports, and the jobs whose count came to
zero on the way are FINISHED. -/
structure BatchEffect (msgs : List Msg) (s s' : Server) : Prop where
  pcstat : ∀ k, s'.pcstat k = if ∃ msg ∈ msgs, msg.frees k then .free else s.pcstat k
  jobnodes : ∀ j, s'.jobnodes j = s.jobnodes j - finishedReports j msgs
  jobStat : ∀ j, (s'.jobq j).jobStat =
    if 0 < s.jobnodes j ∧ s.jobnodes j ≤ finishedReports j msgs then .finished
    else (s.jobq j).jobStat

namespace BatchEffect

variable {msgs msgs' : List Msg} {s s' s'' : Server}

/-- No reports. -/
protected lemma nil (s : Server) : BatchEffect [] s s where
  pcstat k := by simp
  jobnodes j := by simp [finishedReports]
  jobStat j := by
    rw [if_neg]
    rintro ⟨hpos, hle⟩
    simp only [finishedReports, List.countP_nil, Nat.cast_zero] at hle
    omega

/-- A report that is not FINISHED. -/
lemma other {msg : Msg} (h : msg.m2 ≠ JobStat.finished.code) (s : Server) :
    BatchEffect [msg] s s := by
  have hfinishes : ∀ j, ¬msg.finishes j := fun j hj => h hj.1
  have hfrees : ∀ k, ¬msg.frees k := fun k hk => h hk.1
  have hcount : ∀ j, finishedReports j [msg] = 0 := fun j => by
    simp [finishedReports, hfinishes j]
  refine ⟨fun k => ?_, fun j => ?_, fun j => ?_⟩
  · simp [hfrees k]
  · simp [hcount j]
  · rw [hcount j, if_neg]
    rintro ⟨hpos, hle⟩
    push_cast at hle
    omega

/-- A FINISHED report of a node about a job frees the node and counts the job down, and the job
is FINISHED where that brings the counter to 0: the first report of a batch that does. -/
lemma countDown {msg : Msg} (h : msg.m2 = JobStat.finished.code) (s : Server) (now : ℤ) :
    BatchEffect [msg] s
      (if s.jobnodes msg.m1 - 1 = 0 then (s.countDown msg.src msg.m1).finish msg.m1 now
      else s.countDown msg.src msg.m1) := by
  have hcount : ∀ j, finishedReports j [msg] = if msg.m1 = j then 1 else 0 := fun j => by
    by_cases hj : msg.m1 = j <;> simp [finishedReports, Msg.finishes, h, hj]
  have hpcstat : ∀ k, (s.countDown msg.src msg.m1).pcstat k =
      if ∃ m ∈ [msg], m.frees k then .free else s.pcstat k := by
    intro k
    rw [Server.countDown, Server.setJobnodes_pcstat, Server.release_pcstat, Function.update_apply]
    have hfrees : (∃ m ∈ [msg], m.frees k) ↔ k = msg.src := by
      simp [Msg.frees, h, eq_comm]
    exact if_congr hfrees.symm rfl rfl
  have hjobnodes : ∀ j, (s.countDown msg.src msg.m1).jobnodes j =
      s.jobnodes j - finishedReports j [msg] := by
    intro j
    rw [countDown_jobnodes, Function.update_apply, hcount j]
    by_cases hj : j = msg.m1
    · simp [hj]
    · simp [hj, Ne.symm hj]
  split_ifs with hlast
  · refine ⟨hpcstat, hjobnodes, fun j => ?_⟩
    rw [finish_jobStat, countDown_jobq, hcount j]
    by_cases hj : j = msg.m1
    · rw [if_pos hj, if_pos]
      rw [if_pos hj.symm, hj]
      push_cast
      omega
    · rw [if_neg hj, if_neg]
      rw [if_neg (Ne.symm hj)]
      push_cast
      omega
  · refine ⟨hpcstat, hjobnodes, fun j => ?_⟩
    rw [countDown_jobq, hcount j, if_neg]
    by_cases hj : j = msg.m1
    · rw [if_pos hj.symm, hj]
      push_cast
      omega
    · rw [if_neg (Ne.symm hj)]
      push_cast
      omega

/-- **One report.** -/
lemma result {now : ℤ} {msg : Msg} (h : jobQueueResult1 now msg s = some s') :
    BatchEffect [msg] s s' := by
  rw [jobQueueResult1] at h
  by_cases hm2 : msg.m2 = JobStat.finished.code
  · rw [if_pos hm2] at h
    simp only [countDown_jobnodes, Function.update_self] at h
    split_ifs at h with hin hlast
    · obtain rfl := Option.some.inj h
      simpa only [if_pos hlast] using countDown hm2 s now
    · obtain rfl := Option.some.inj h
      simpa only [if_neg hlast] using countDown hm2 s now
  · rw [if_neg hm2] at h
    obtain rfl := Option.some.inj h
    exact other hm2 s

/-- **One batch after another.**  A count that came to zero in the second batch was
positive before it, so the first batch did not bring it there. -/
lemma append (h : BatchEffect msgs s s') (h' : BatchEffect msgs' s' s'') :
    BatchEffect (msgs ++ msgs') s s'' := by
  have hcount : ∀ j, finishedReports j (msgs ++ msgs') =
      finishedReports j msgs + finishedReports j msgs' := fun j => List.countP_append
  refine ⟨fun k => ?_, fun j => ?_, fun j => ?_⟩
  · rw [h'.pcstat k, h.pcstat k]
    by_cases hlater : ∃ msg ∈ msgs', msg.frees k
    · have hsome : ∃ msg ∈ msgs ++ msgs', msg.frees k :=
        hlater.imp fun msg hmsg => ⟨List.mem_append_right msgs hmsg.1, hmsg.2⟩
      rw [if_pos hlater, if_pos hsome]
    · rw [if_neg hlater]
      refine if_congr ?_ rfl rfl
      simp only [List.mem_append, or_and_right, exists_or, hlater, or_false]
  · calc s''.jobnodes j = s.jobnodes j - finishedReports j msgs - finishedReports j msgs' := by
          rw [h'.jobnodes j, h.jobnodes j]
      _ = s.jobnodes j - finishedReports j (msgs ++ msgs') := by
          rw [hcount j]
          push_cast
          ring
  · rw [h'.jobStat j, h.jobStat j, h.jobnodes j, hcount j]
    push_cast
    split_ifs <;> first | rfl | omega

/-- The closed form of a batch does not depend on its order. -/
lemma perm (h : BatchEffect msgs s s') (hperm : msgs.Perm msgs') : BatchEffect msgs' s s' where
  pcstat k := by
    rw [h.pcstat k]
    exact if_congr (exists_congr fun msg => and_congr_left' hperm.mem_iff) rfl rfl
  jobnodes j := by rw [h.jobnodes j, finishedReports, hperm.countP_eq, finishedReports]
  jobStat j := by rw [h.jobStat j, finishedReports, hperm.countP_eq, finishedReports]

end BatchEffect

/-- **A batch of complete reports** leaves its closed form. -/
lemma batchEffect_results {numHosts : ℤ} (hbound : numHosts < maxNumHosts)
    (reports : List (ℤ × JobReturn numHosts)) (s : Server) :
    ∃ s', jobQueueResults (reports.map fun r => (r.1, r.2.1)) s = some s' ∧
      BatchEffect (reports.map fun r => r.2.1) s s' := by
  induction reports generalizing s with
  | nil => exact ⟨s, rfl, .nil s⟩
  | cons report reports ih =>
      obtain ⟨now, msg, hsrc, hjob⟩ := report
      have hin : inTable maxNumHosts msg.src := ⟨by omega, by omega⟩
      obtain ⟨s₁, hfirst⟩ : ∃ s₁, jobQueueResult1 now msg s = some s₁ := by
        rw [jobQueueResult1]
        simp only [hin, hjob, and_self, if_true]
        split_ifs <;> exact ⟨_, rfl⟩
      obtain ⟨s', hrest, heffect⟩ := ih s₁
      refine ⟨s', ?_, ?_⟩
      · rw [List.map_cons, jobQueueResults, hfirst]
        exact hrest
      · rw [List.map_cons, ← List.singleton_append]
        exact (BatchEffect.result hfirst).append heffect

/-! ### Any order -/

/-- What the reports decide is the same in two states: who is FREE, what is counted, and
the status of the jobs; not the times. -/
structure SameResults (s s' : Server) : Prop where
  pcstat : s.pcstat = s'.pcstat
  jobnodes : s.jobnodes = s'.jobnodes
  jobStat : ∀ j, (s.jobq j).jobStat = (s'.jobq j).jobStat

/-- **Reports commute**: a batch in two orders, at any times, is handled to the same
tables, and a job that was not FINISHED and waited for `c` nodes is FINISHED exactly when
the batch has at least `c` FINISHED reports about it. -/
theorem jobQueueResults_perm {numHosts : ℤ} (hbound : numHosts < maxNumHosts)
    {reports reports' : List (ℤ × JobReturn numHosts)}
    (hperm : (reports.map fun r => r.2.1).Perm (reports'.map fun r => r.2.1)) (s : Server) :
    ∃ s₁ s₂, jobQueueResults (reports.map fun r => (r.1, r.2.1)) s = some s₁ ∧
      jobQueueResults (reports'.map fun r => (r.1, r.2.1)) s = some s₂ ∧ SameResults s₁ s₂ ∧
      ∀ j, (s.jobq j).jobStat ≠ .finished → 0 < s.jobnodes j →
        ((s₁.jobq j).jobStat = .finished ↔
            s.jobnodes j ≤ finishedReports j (reports.map fun r => r.2.1)) ∧
          s₁.jobnodes j = s.jobnodes j - finishedReports j (reports.map fun r => r.2.1) := by
  obtain ⟨s₁, hrun, h₁⟩ := batchEffect_results hbound reports s
  obtain ⟨s₂, hrun', h₂⟩ := batchEffect_results hbound reports' s
  have h₂' := h₂.perm hperm.symm
  refine ⟨s₁, s₂, hrun, hrun', ⟨funext fun k => ?_, funext fun j => ?_, fun j => ?_⟩,
    fun j hstat hpos => ⟨?_, h₁.jobnodes j⟩⟩
  · rw [h₁.pcstat k, h₂'.pcstat k]
  · rw [h₁.jobnodes j, h₂'.jobnodes j]
  · rw [h₁.jobStat j, h₂'.jobStat j]
  · rw [h₁.jobStat j]
    simp [hpos, hstat]

lemma complete_first : (1 ≤ (1 : ℤ) ∧ (1 : ℤ) ≤ 2) ∧ inTable maxJobQueue 0 := by decide

lemma complete_second : (1 ≤ (2 : ℤ) ∧ (2 : ℤ) ≤ 2) ∧ inTable maxJobQueue 0 := by decide

/-- Node 1 finished its part of job 0. -/
def firstReport : JobReturn 2 := ⟨⟨msgTypeJobReturn, 1, 1, 0, 3, []⟩, complete_first⟩

/-- Node 2 finished its part of job 0. -/
def secondReport : JobReturn 2 := ⟨⟨msgTypeJobReturn, 2, 1, 0, 3, []⟩, complete_second⟩

/-- Job 0 waits for two nodes: whichever of the two reports comes first, it is FINISHED after
both. -/
theorem jobQueueResults_perm_two :
    ∃ s₁ s₂,
      jobQueueResults [(7, firstReport.1), (8, secondReport.1)]
        ((configure fun _ => []).setJobnodes 0 2) = some s₁ ∧
      jobQueueResults [(7, secondReport.1), (8, firstReport.1)]
        ((configure fun _ => []).setJobnodes 0 2) = some s₂ ∧
      SameResults s₁ s₂ ∧ (s₁.jobq 0).jobStat = .finished ∧ s₁.jobnodes 0 = 0 := by
  obtain ⟨s₁, s₂, hrun, hrun', hsame, hjobs⟩ := @jobQueueResults_perm 2 (by decide)
    [(7, firstReport), (8, secondReport)] [(7, secondReport), (8, firstReport)]
    (List.Perm.swap ..) ((configure fun _ => []).setJobnodes 0 2)
  obtain ⟨hfinished, hcount⟩ := hjobs 0 (by decide) (by decide)
  exact ⟨s₁, s₂, hrun, hrun', hsame, hfinished.mpr (by decide), hcount.trans (by decide)⟩

end Epbs
