/-
The master whatever it is sent, and which slots of the job ring were used.

* `masterMachine`: any requests, any reports, in any order; `master_of_cluster`: the master
  of a cluster is one of its runs;
* `Usage`: a slot was used once the head has passed it: it has its id and a status then, and
  before that neither of them and no nodes counted;
* `usage_of_reach`: that holds in every state the master reaches.
-/
import Epbs.Cluster.Numbering

namespace Epbs

/-- The master, sent anything: requests and reports of any content, from the configured
tables. -/
def masterMachine (numHosts : ℤ) (ips : ℤ → Bytes) : Machine Master MasterAct where
  init := .init ips
  step a m := (m.step numHosts a).map (·.1)

/-- **The master of a cluster** takes steps of the master. -/
theorem master_of_cluster {numHosts : ℤ} {accepts : Network} {ips : ℤ → Bytes}
    {G : Master → MasterAct → Prop} {s : Sys}
    (h : (clusterMachine numHosts accepts ips).Reach (OnMaster numHosts G) s) :
    (masterMachine numHosts ips).Reach G s.master := by
  refine h.simulate (f := Sys.master) rfl fun s l s' _ _ hg hs => ?_
  rcases master_sysStep (sysStep_spec hs) with heq | ⟨a, ps, ha, hm⟩
  · exact .inl heq
  · refine .inr ⟨a, hg a ha, ?_⟩
    show (s.master.step numHosts a).map (·.1) = some s'.master
    rw [hm, Option.map_some]

/-- What a slot tells about its use: once it was used, it has its own index for the id and a
status; before, it is as `jobq_init` left it. -/
structure Usage (m : Master) : Prop where
  labelled : Labelled m
  used : ∀ i, inTable maxJobQueue i → i < m.accepted →
    (m.srv.jobq i).jobId = i ∧ (m.srv.jobq i).jobStat ≠ .unknow
  unused : ∀ i, inTable maxJobQueue i → m.accepted ≤ i →
    (m.srv.jobq i).jobId = -1 ∧ (m.srv.jobq i).jobStat = .unknow ∧ m.srv.jobnodes i ≤ 0

lemma usage_init (ips : ℤ → Bytes) : Usage (.init ips) where
  labelled := labelled_init ips
  used _ hi hlt := absurd hlt (not_lt.mpr hi.1)
  unused _ _ _ := ⟨rfl, rfl, le_rfl⟩

/-- The slot of a job is below its number. -/
lemma slotOf_le (t : ℕ) : slotOf t ≤ t := by
  rw [slotOf, maxJobQueue]
  omega

namespace Usage

variable {m m' : Master}

/-- A slot without an id was never used. -/
lemma jobId_eq_iff (h : Usage m) {i : ℤ} (hi : inTable maxJobQueue i) :
    (m.srv.jobq i).jobId = -1 ↔ m.accepted ≤ i := by
  refine ⟨fun hnone => ?_, fun hle => (h.unused i hi hle).1⟩
  by_contra hlt
  have hown := (h.used i hi (not_le.mp hlt)).1
  have hlow := hi.1
  omega

/-- A step that marks used slots only, and counts no nodes for the others. -/
lemma keep (h : Usage m) (hlab : Labelled m') (haccepted : m'.accepted = m.accepted)
    (hid : ∀ i, (m'.srv.jobq i).jobId = (m.srv.jobq i).jobId)
    (hstat : ∀ i, (m'.srv.jobq i).jobStat = (m.srv.jobq i).jobStat ∨
      (i < m.accepted ∧ (m'.srv.jobq i).jobStat ≠ .unknow))
    (hnodes : ∀ i : ℤ, m.accepted ≤ i → m.srv.jobnodes i ≤ 0 → m'.srv.jobnodes i ≤ 0) :
    Usage m' := by
  refine ⟨hlab, fun i hi hlt => ?_, fun i hi hle => ?_⟩
  · rw [haccepted] at hlt
    obtain ⟨hown, hused⟩ := h.used i hi hlt
    refine ⟨(hid i).trans hown, ?_⟩
    rcases hstat i with hsame | hmarked
    · rwa [hsame]
    · exact hmarked.2
  · rw [haccepted] at hle
    obtain ⟨hnone, hunknow, hzero⟩ := h.unused i hi hle
    refine ⟨(hid i).trans hnone, ?_, hnodes i hle hzero⟩
    rcases hstat i with hsame | hmarked
    · exact hsame.trans hunknow
    · exact absurd hmarked.1 (not_lt.mpr hle)

/-- A SUBMIT uses the slot at the head, which is the next one that was not used, or one that was
used before. -/
lemma submit (h : Usage m) (hlab : Labelled m') {job : BatchJobInfo}
    (hid : job.jobId = m.srv.jobHead) (hstat : job.jobStat = .inqueue)
    (haccepted : m'.accepted = m.accepted + 1)
    (hsrv : m'.srv = (m.srv.writeSlot m.srv.jobHead job).advanceHead) : Usage m' := by
  have hhead := h.labelled.numbered.head
  refine ⟨hlab, fun i hi hlt => ?_, fun i hi hle => ?_⟩
  · rw [hsrv, Server.advanceHead_jobq, Server.writeSlot_jobq]
    by_cases hslot : i = m.srv.jobHead
    · rw [hslot, Function.update_self, hid, hstat]
      exact ⟨rfl, fun hc => by cases hc⟩
    · rw [Function.update_of_ne hslot]
      refine h.used i hi ?_
      -- the head is the next slot as long as the ring was not filled
      rw [hhead, slotOf] at hslot
      rw [haccepted] at hlt
      obtain ⟨hnonneg, hlow⟩ := hi
      rw [maxJobQueue] at *
      omega
  · rw [haccepted] at hle
    have hslot : i ≠ m.srv.jobHead := by
      rw [hhead]
      have hbelow := slotOf_le m.accepted
      omega
    rw [hsrv, Server.advanceHead_jobq, Server.writeSlot_jobq, Function.update_of_ne hslot]
    exact h.unused i hi (by omega)

/-- The slot at the tail of a queue that is not empty was used. -/
lemma tail_lt (h : Usage m) (hne : m.srv.jobHead ≠ m.srv.jobTail) :
    m.srv.jobTail < m.accepted := by
  have hlt := h.labelled.numbered.popped_lt hne
  calc m.srv.jobTail = slotOf m.popped := h.labelled.numbered.tail
    _ ≤ m.popped := slotOf_le m.popped
    _ < m.accepted := by exact_mod_cast hlt

/-- A pop marks the slot at the tail. -/
lemma take (h : Usage m) (hlab : Labelled m') {j : PoppedJob} {srv : Server}
    (htake : jobQueueTake m.srv = some (some j, srv)) (haccepted : m'.accepted = m.accepted)
    (hid : ∀ i, (m'.srv.jobq i).jobId = (srv.jobq i).jobId)
    (hstat : ∀ i, (m'.srv.jobq i).jobStat = (srv.jobq i).jobStat)
    (hnodes : m'.srv.jobnodes = m.srv.jobnodes) : Usage m' := by
  obtain ⟨hne, _, _, _, rfl⟩ := jobQueueTake_some htake
  refine h.keep hlab haccepted (fun i => ?_) (fun i => ?_) fun i _ hzero => hnodes ▸ hzero
  · exact (hid i).trans (Server.writeSlot_field _ (·.jobId) (by rfl) i)
  · rw [hstat, Server.advanceTail_jobq, Server.writeSlot_jobq, update_start_jobStat]
    split_ifs with htail
    · exact .inr ⟨htail ▸ h.tail_lt hne, fun hc => by cases hc⟩
    · exact .inl rfl

/-- A counted report is about a used slot, or leaves its counter below zero. -/
lemma countDown_le (jobId : ℤ) {i : ℤ} (src : ℤ) (hzero : m.srv.jobnodes i ≤ 0) :
    (m.srv.countDown src jobId).jobnodes i ≤ 0 := by
  rw [countDown_jobnodes, Function.update_apply]
  split_ifs with hown
  · rw [← hown]
    omega
  · exact hzero

/-- **One step of the master** keeps the use of the slots. -/
lemma step (h : Usage m) {numHosts : ℤ} {a : MasterAct} {ps : List Packet}
    (hstep : MasterStep numHosts m a m' ps) : Usage m' := by
  have hlab := h.labelled.step hstep
  have hnodes : ∀ i, (m.accepted : ℤ) ≤ i → m.srv.jobnodes i ≤ 0 → m.srv.jobnodes i ≤ 0 :=
    fun _ _ hzero => hzero
  cases hstep with
  | submit req now pcomm username => exact h.submit hlab rfl rfl rfl rfl
  | pop now hpop =>
      cases hpop with
      | take hpc htake hfits =>
          obtain ⟨_, _, _, _, hsrv⟩ := jobQueueTake_some htake
          exact h.take hlab htake rfl (fun _ => rfl) (fun _ => rfl) (by rw [hsrv]; rfl)
      | skip hpc htake hlarge =>
          obtain ⟨_, _, _, _, hsrv⟩ := jobQueueTake_some htake
          exact h.take hlab htake rfl (Server.writeSlot_field _ (·.jobId) (by rfl))
            (fun i => stamp_jobStat ..) (by rw [stamp_jobnodes, hsrv]; rfl)
      | enough hpc hi hcount =>
          exact h.keep hlab rfl (Server.writeSlot_field _ (·.jobId) (by rfl))
            (fun i => .inl (stamp_jobStat ..)) hnodes
      | @finish j t i k hpc hi hin =>
          refine h.keep hlab rfl (fun _ => rfl) (fun _ => .inl rfl) fun i' hle hzero => ?_
          obtain ⟨hlt, -, hid, -⟩ := h.labelled.held j t (Master.held_of_dispatch hpc)
          have hother : i' ≠ j.jobId := by
            have hbelow := slotOf_le t
            omega
          rw [Server.setJobnodes_jobnodes, Function.update_of_ne hother]
          exact hzero
      | empty hpc hempty => exact h
      | _ => exact h.keep hlab rfl (fun _ => rfl) (fun _ => .inl rfl) hnodes
  | report msg job now hm2 hsrc hjob hmore =>
      exact h.keep hlab rfl (fun _ => rfl) (fun _ => .inl rfl) fun _ _ hzero =>
        countDown_le msg.m1 msg.src hzero
  | lastReport msg job now hm2 hsrc hjob hlast =>
      refine h.keep hlab rfl (Server.writeSlot_field _ (·.jobId) (by rfl)) (fun i => ?_)
        fun _ _ hzero => countDown_le msg.m1 msg.src hzero
      rw [finish_jobStat]
      split_ifs with hown
      · refine .inr ⟨?_, fun hc => by cases hc⟩
        -- only of a used slot nodes were counted
        by_contra hle
        have hnone := (h.unused msg.m1 hjob (by rw [← hown]; omega)).2.2
        omega
      · exact .inl rfl
  | other msg job now hm2 => exact h
  | _ => exact h.keep hlab rfl (fun _ => rfl) (fun _ => .inl rfl) hnodes

end Usage

/-- **The use of the slots** in every state the master reaches. -/
theorem usage_of_reach {numHosts : ℤ} {ips : ℤ → Bytes} {m : Master}
    (h : (masterMachine numHosts ips).Reach Machine.always m) : Usage m := by
  refine h.invariant (usage_init ips) fun m a m' _ hI _ hs => ?_
  obtain ⟨⟨_, ps⟩, hm, rfl⟩ := Option.map_eq_some_iff.mp hs
  exact hI.step (masterStep_spec hm)

end Epbs
