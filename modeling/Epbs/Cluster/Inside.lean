/-
The arrays of the server while the cluster runs.

* `popStep_isSome_iff`: the pop thread takes a step exactly if it can copy the command of the
  job that it takes next (`Master.CommandCopies`);
* `Carried.answered`: what is in flight has a reader, and a report stays inside the tables;
* `server_stays_inside`: in every reachable state, over any network.
-/
import Epbs.Cluster.Delay
import Epbs.Cluster.Drain
import Epbs.Wire.Submit

namespace Epbs

/-! ### The pop thread -/

/-- What is known of the indices of the pop thread. -/
structure Indexed (numHosts : ℤ) (m : Master) : Prop where
  scanning : Scanning m
  placing : Placing numHosts m
  labelled : Labelled m

/-- The indices are in range in every reachable state. -/
lemma indexed_of_reach {numHosts : ℤ} {accepts : Network} {ips : ℤ → Bytes} {s : Sys}
    (h : (clusterMachine numHosts accepts ips).Reach Machine.always s) :
    Indexed numHosts s.master :=
  cluster_invariant (G := fun _ _ => True)
    ⟨⟨nofun⟩, placing_init numHosts ips, labelled_init ips⟩
    (fun _ _ _ _ hI _ hs => ⟨hI.scanning.step hs, hI.placing.step hs, hI.labelled.step hs⟩)
    (h.mono fun _ _ _ _ _ => trivial)

/-- **The pop thread stays inside its arrays** exactly if the next command can be copied. -/
lemma popStep_isSome_iff {numHosts now : ℤ} {m : Master} (h : Indexed numHosts m)
    (hhosts : numHosts < maxNumHosts) :
    (popStep numHosts now m).isSome = true ↔ m.CommandCopies := by
  rw [popStep]
  cases hpc : m.pop with
  | start => exact iff_of_true rfl fun hidle => by rw [hpc] at hidle; cases hidle
  | idle =>
      simp only
      rw [Option.isSome_map, jobQueueTake_isSome_iff, Master.CommandCopies, imp_iff_right hpc]
  | wait j t count i =>
      have hi := (h.scanning.count j t count i hpc).2
      refine iff_of_true ?_ fun hidle => by rw [hpc] at hidle; cases hidle
      simp only
      split_ifs with hle hin hcount
      · rfl
      · exact absurd ⟨by omega, by omega⟩ hin
      · rfl
      · rfl
  | dispatch j t i k =>
      have hk := (h.placing.rounds j t i k hpc).2
      have hid := (h.labelled.held j t (Master.held_of_dispatch hpc)).2.2.1
      refine iff_of_true ?_ fun hidle => by rw [hpc] at hidle; cases hidle
      simp only
      split_ifs with hi hle hin hfree hjob
      · rfl
      · rfl
      · exact absurd ⟨by omega, by omega⟩ hin
      · rfl
      · rfl
      · exact absurd (hid ▸ inTable_slotOf t) hjob

/-! ### What is in flight -/

/-- The job id of a dispatch under way is a slot of the queue. -/
lemma jobId_of_outstanding {numHosts : ℤ} {accepts : Network} {ips : ℤ → Bytes} {s : Sys}
    (h : (clusterMachine numHosts accepts ips).Reach Machine.always s) {d : Dispatch}
    (hd : d ∈ s.outstanding numHosts) : inTable maxJobQueue d.jobId := by
  obtain ⟨t, ht, hdelay⟩ := exists_delayed (G := fun _ _ => True)
    (h.mono fun _ _ _ _ _ => trivial)
  have htally : Tallied (t.ledger numHosts) := (ledger_of_cluster ht).invariant (tallied_init ips)
    fun _ _ _ _ hL _ hs => hL.step hs
  rw [(htally.ids d (Multiset.mem_of_le (hdelay.outstanding_le numHosts) hd)).2]
  exact inTable_slotOf d.job

/-- **A packet in flight** has a reader, and if it is a report the master handles it inside its
tables: its source is a host of the list, and the job id is that of a dispatch, a slot of the
queue. -/
lemma Carried.answered {numHosts : ℤ} {accepts : Network} {s : Sys} {p : Packet}
    (h : Carried numHosts p) (hhosts : numHosts < maxNumHosts) (hp : p ∈ s.flight)
    (hjob : ∀ d ∈ s.outstanding numHosts, inTable maxJobQueue d.jobId) :
    p.reader numHosts ≠ .nobody ∧ ∀ createOk now,
      ((SysAct.deliver p createOk now).masterAct numHosts).isSome = true →
        (s.step numHosts accepts (.deliver p createOk now)).isSome = true := by
  cases h with
  | submit hk command jobId job =>
      rw [reader_submit hk]
      refine ⟨by simp, fun createOk now hact => ?_⟩
      rw [SysAct.masterAct, reader_submit hk] at hact
      cases hact
  | cancel hk jobId job =>
      rw [reader_cancel hk]
      refine ⟨by simp, fun createOk now hact => ?_⟩
      rw [SysAct.masterAct, reader_cancel hk] at hact
      cases hact
  | @jobReturn k hk j =>
      have hreader : (Node.jobReturn k j).reader numHosts = .result := rfl
      refine ⟨by rw [hreader]; decide, fun createOk now _ => ?_⟩
      -- the report in flight is itself the outstanding dispatch
      have hout : (⟨j.job, k, j.jobId⟩ : Dispatch) ∈ s.outstanding numHosts :=
        Multiset.mem_add.mpr (.inl (Multiset.mem_coe.mpr (List.mem_filterMap.mpr ⟨_, hp, rfl⟩)))
      have hin : inTable maxNumHosts (Node.jobReturn k j).msg.src ∧
          inTable maxJobQueue (Node.jobReturn k j).msg.m1 :=
        ⟨⟨by show 0 ≤ k; omega, by show k < maxNumHosts; omega⟩, hjob _ hout⟩
      have hresult : (s.master.result (Node.jobReturn k j).msg j.job now).isSome = true := by
        have hm2 : (Node.jobReturn k j).msg.m2 = JobStat.finished.code := rfl
        rw [Master.result, Option.isSome_map, jobQueueResult1, if_pos hm2, if_pos hin]
        simp only
        split_ifs <;> rfl
      rw [Sys.step, if_pos hp, hreader]
      exact (Option.isSome_map ..).trans hresult
  | @hostReport k hk j =>
      have hreader : (Node.hostReport k j).reader numHosts = .hostStatus := rfl
      refine ⟨by rw [hreader]; decide, fun createOk now _ => ?_⟩
      have hin : inTable (maxNumHosts + 1) (Node.hostReport k j).msg.m1 :=
        ⟨by show 0 ≤ k; omega, by show k < ((maxNumHosts + 1 : ℕ) : ℤ); push_cast; omega⟩
      have hresult : (s.master.hostStatus (Node.hostReport k j).msg j.job).isSome = true := by
        rw [Master.hostStatus, Option.isSome_map, epbsHostStatus, if_pos hin]
        rfl
      rw [Sys.step, if_pos hp, hreader]
      exact (Option.isSome_map ..).trans hresult

/-! ### The server -/

/-- **The server stays inside its arrays.**  Over any network, with fewer than `MAX_NUM_HOSTS`
hosts, in every reachable state: every packet in flight has a reader, every report is handled
inside the tables, and so is every CANCEL; a SUBMIT is, exactly if the strings of the request
fit the slot, and the pop thread takes its next step, exactly if it does not have to copy a
command that leaves `pcomm[32]`. -/
theorem server_stays_inside {numHosts : ℤ} {accepts : Network} {ips : ℤ → Bytes} {s : Sys}
    (h : (clusterMachine numHosts accepts ips).Reach Machine.always s)
    (hhosts : numHosts < maxNumHosts) :
    (∀ p ∈ s.flight, p.reader numHosts ≠ .nobody ∧ ∀ createOk now,
      ((SysAct.deliver p createOk now).masterAct numHosts).isSome = true →
        (s.step numHosts accepts (.deliver p createOk now)).isSome = true) ∧
      (∀ jobId, (s.step numHosts accepts (.cancel jobId)).isSome = true) ∧
      (∀ req now, (s.step numHosts accepts (.submit req now)).isSome = true ↔
        (sprintf 256 req.commStr req.commStrLen).isSome = true ∧
          (sprintf 32 req.username req.usernameLen).isSome = true) ∧
      ∀ now, (s.step numHosts accepts (.pop now)).isSome = true ↔ s.master.CommandCopies := by
  refine ⟨fun p hp => ?_, fun jobId => ?_, fun req now => ?_, fun now => ?_⟩
  · exact ((carrying_of_reach h).flight p hp).answered hhosts hp
      fun d hd => jobId_of_outstanding h hd
  · show (Sys.masterStep ..).isSome = true
    rw [Sys.masterStep, Option.isSome_map, Master.step, Master.cancel, if_pos hhosts]
    rfl
  · show (Sys.masterStep ..).isSome = true ↔ _
    rw [Sys.masterStep, Option.isSome_map, Master.step, Option.isSome_map, Master.submit,
      Option.isSome_map]
    exact jobMonitorSubmit_isSome_iff
  · show (Sys.masterStep ..).isSome = true ↔ _
    rw [Sys.masterStep, Option.isSome_map, Master.step]
    exact popStep_isSome_iff (indexed_of_reach h) hhosts

/-- A command of 32 bytes is taken in, and the pop thread cannot copy it. -/
theorem server_stays_inside_long : ∃ s,
    (clusterMachine 1 lossless fun _ => []).Reach Machine.always s ∧
      s.step 1 lossless (.pop 0) = none ∧ ¬ s.master.CommandCopies ∧
      ∀ jobId, (s.step 1 lossless (.cancel jobId)).isSome = true := by
  have hrun : ((clusterMachine 1 lossless fun _ => []).run
      [.pop 0, .submit ⟨1, List.replicate 32 97, 33, 1, [117], 2⟩ 0]
      (clusterMachine 1 lossless fun _ => []).init).any
        (fun s => (s.step 1 lossless (.pop 0)).isNone) = true := by
    decide +kernel
  obtain ⟨s, hs, hstuck⟩ := Machine.exists_reach_of_run hrun
  have hnone : s.step 1 lossless (.pop 0) = none := Option.isNone_iff_eq_none.mp hstuck
  obtain ⟨-, hcancel, -, hpop⟩ := server_stays_inside hs (by decide)
  refine ⟨s, hs, hnone, fun hcopies => ?_, hcancel⟩
  have hsome := (hpop 0).mpr hcopies
  rw [hnone] at hsome
  cases hsome

end Epbs
