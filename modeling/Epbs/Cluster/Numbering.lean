/-
The numbers of the jobs and the slots they are stored in.

* `slotOf`: the slot of a job, its number modulo the length of the ring;
* `Master.Owns`: a job owns its slot until the ring comes round to it again;
* `Numbered`: the two indices count the jobs accepted and taken, and a slot
  holds the job that owns it; kept by every step of the master;
* `Labelled`: the pop thread's private copy carries the slot, the id and the
  node count of the job it is a copy of;
* `Placing`: the loops of the pop thread start at one and hold jobs that fit;
* `cluster_invariant`: what every step of the master keeps holds along every run
  of the cluster, over any network.
-/
import Epbs.Cluster.Network

namespace Epbs

/-! ### Slots -/

/-- The slot of a job. -/
def slotOf (t : ℕ) : ℤ := (t : ℤ) % maxJobQueue

lemma slotOf_succ (t : ℕ) : (slotOf t + 1) % maxJobQueue = slotOf (t + 1) := by
  rw [slotOf, slotOf, Int.emod_add_emod, Nat.cast_succ]

lemma slotOf_eq_iff {t u : ℕ} : slotOf t = slotOf u ↔ t % maxJobQueue = u % maxJobQueue := by
  rw [slotOf, slotOf, ← Int.natCast_mod, ← Int.natCast_mod, Nat.cast_inj]

/-- Slots in the first round are different. -/
lemma slotOf_ne_of_lt {t u : ℕ} (hut : u < t) (ht : t < maxJobQueue) :
    slotOf t ≠ slotOf u := by
  rw [Ne, slotOf_eq_iff, Nat.mod_eq_of_lt ht, Nat.mod_eq_of_lt (hut.trans ht)]
  exact ne_of_gt hut

/-- The last `MAX_JOB_QUEUE` jobs accepted own their slots. -/
def Master.Owns (m : Master) (t : ℕ) : Prop :=
  t < m.accepted ∧ m.accepted ≤ t + maxJobQueue

/-- Two jobs that own the same slot are the same. -/
lemma Master.Owns.eq_of_slotOf_eq {m : Master} {t u : ℕ} (ht : m.Owns t) (hu : m.Owns u)
    (h : slotOf t = slotOf u) : t = u := by
  rw [slotOf_eq_iff] at h
  obtain ⟨ht, ht'⟩ := ht
  obtain ⟨hu, hu'⟩ := hu
  rw [maxJobQueue] at *
  omega

/-- A slot passed by the head has an owner. -/
lemma Master.exists_owner {m : Master} {t : ℕ} (h : t < m.accepted) :
    ∃ u, m.Owns u ∧ slotOf u = slotOf t := by
  refine ⟨t + maxJobQueue * ((m.accepted - 1 - t) / maxJobQueue), ⟨?_, ?_⟩, ?_⟩
  · have := Nat.mul_div_le (m.accepted - 1 - t) maxJobQueue
    omega
  · have := Nat.lt_mul_div_succ (m.accepted - 1 - t) maxJobQueue_pos
    rw [Nat.mul_add] at this
    omega
  · rw [slotOf_eq_iff, Nat.add_mul_mod_self_left]

section Steps

variable {m m' : Master} {t : ℕ}

/-- A step that accepts no job leaves the owners. -/
lemma Master.owns_congr (h : m'.accepted = m.accepted) (t : ℕ) : m'.Owns t ↔ m.Owns t := by
  rw [Master.Owns, h, Master.Owns]

/-- The job that is accepted gets a slot. -/
lemma Master.owns_accepted (h : m'.accepted = m.accepted + 1) : m'.Owns m.accepted := by
  have hpos := maxJobQueue_pos
  rw [Master.Owns, h]
  exact ⟨Nat.lt_succ_self _, by omega⟩

/-- **After a SUBMIT** an older job with a slot had it before, and it is not the slot of the
new job. -/
lemma Master.Owns.of_accept (ht : m'.Owns t) (h : m'.accepted = m.accepted + 1)
    (hne : t ≠ m.accepted) : m.Owns t ∧ slotOf t ≠ slotOf m.accepted := by
  obtain ⟨hlt, hle⟩ := ht
  rw [h] at hlt hle
  refine ⟨⟨by omega, by omega⟩, ?_⟩
  rw [Ne, slotOf_eq_iff]
  rw [maxJobQueue] at *
  omega

/-- A job that loses its slot is a round before the new job. -/
lemma Master.Owns.of_lost (ht : m.Owns t) (h : m'.accepted = m.accepted + 1)
    (hnot : ¬ m'.Owns t) : t + maxJobQueue = m.accepted := by
  obtain ⟨hlt, hle⟩ := ht
  rw [Master.Owns, h] at hnot
  omega

/-- A job in another slot keeps it. -/
lemma Master.Owns.accept (ht : m.Owns t) (h : m'.accepted = m.accepted + 1)
    (hslot : slotOf t ≠ slotOf m.accepted) : m'.Owns t := by
  by_contra hnot
  refine hslot ?_
  rw [slotOf_eq_iff, ← ht.of_lost h hnot, Nat.add_mod_right]

end Steps

/-! ### The indices count the jobs -/

/-- The head is the slot of the next job accepted, the tail that of the next job
taken, and a slot holds the job that owns it. -/
structure Numbered (m : Master) : Prop where
  head : m.srv.jobHead = slotOf m.accepted
  tail : m.srv.jobTail = slotOf m.popped
  popped_le : m.popped ≤ m.accepted
  owner : ∀ t, m.Owns t → m.jobOf (slotOf t) = t ∧ (m.srv.jobq (slotOf t)).jobId = slotOf t

lemma numbered_init (ips : ℤ → Bytes) : Numbered (.init ips) where
  head := rfl
  tail := rfl
  popped_le := le_rfl
  owner t ht := absurd ht.1 (Nat.not_lt_zero t)

namespace Numbered

variable {m m' : Master}

/-- A step that leaves the indices and the ids alone. -/
lemma of_same (h : Numbered m) (haccepted : m'.accepted = m.accepted)
    (hpopped : m'.popped = m.popped) (hjobOf : m'.jobOf = m.jobOf)
    (hhead : m'.srv.jobHead = m.srv.jobHead) (htail : m'.srv.jobTail = m.srv.jobTail)
    (hid : ∀ i, (m'.srv.jobq i).jobId = (m.srv.jobq i).jobId) : Numbered m' where
  head := by rw [hhead, haccepted, h.head]
  tail := by rw [htail, hpopped, h.tail]
  popped_le := by rw [hpopped, haccepted]; exact h.popped_le
  owner t ht := by
    rw [hjobOf, hid]
    exact h.owner t ((Master.owns_congr haccepted t).mp ht)

/-- Equal indices: as many jobs taken as accepted, up to whole rounds. -/
lemma popped_lt (h : Numbered m) (hne : m.srv.jobHead ≠ m.srv.jobTail) :
    m.popped < m.accepted := by
  refine lt_of_le_of_ne h.popped_le fun heq => hne ?_
  rw [h.head, h.tail, heq]

/-- The job that a pop takes owns the slot at the tail. -/
lemma exists_taken (h : Numbered m) (hne : m.srv.jobHead ≠ m.srv.jobTail) :
    m.Owns (m.jobOf m.srv.jobTail) ∧ slotOf (m.jobOf m.srv.jobTail) = m.srv.jobTail ∧
      (m.srv.jobq m.srv.jobTail).jobId = m.srv.jobTail := by
  obtain ⟨u, hu, hslot⟩ := Master.exists_owner (h.popped_lt hne)
  obtain ⟨hjob, hid⟩ := h.owner u hu
  rw [h.tail, ← hslot, hjob]
  exact ⟨hu, rfl, hid⟩

/-- A SUBMIT gives the slot at the head to the next job. -/
lemma submit (h : Numbered m) {job : BatchJobInfo} (hid : job.jobId = m.srv.jobHead)
    (haccepted : m'.accepted = m.accepted + 1) (hpopped : m'.popped = m.popped)
    (hjobOf : m'.jobOf = Function.update m.jobOf m.srv.jobHead m.accepted)
    (hsrv : m'.srv = (m.srv.writeSlot m.srv.jobHead job).advanceHead) : Numbered m' where
  head := by rw [hsrv, Server.advanceHead_jobHead, Server.writeSlot_jobHead, h.head,
    slotOf_succ, haccepted]
  tail := by rw [hsrv, hpopped, ← h.tail]; rfl
  popped_le := by have := h.popped_le; omega
  owner t ht := by
    rw [hjobOf, hsrv, Server.advanceHead_jobq, Server.writeSlot_jobq]
    by_cases heq : t = m.accepted
    · rw [heq, ← h.head, Function.update_self, Function.update_self, hid]
      exact ⟨rfl, rfl⟩
    · obtain ⟨hold, hslot⟩ := ht.of_accept haccepted heq
      rw [← h.head] at hslot
      rw [Function.update_of_ne hslot, Function.update_of_ne hslot]
      exact h.owner t hold

/-- A pop moves the tail past the job it takes. -/
lemma take (h : Numbered m) {j : PoppedJob} {srv : Server}
    (htake : jobQueueTake m.srv = some (some j, srv))
    (haccepted : m'.accepted = m.accepted) (hpopped : m'.popped = m.popped + 1)
    (hjobOf : m'.jobOf = m.jobOf) (hhead : m'.srv.jobHead = srv.jobHead)
    (htail : m'.srv.jobTail = srv.jobTail)
    (hid : ∀ i, (m'.srv.jobq i).jobId = (srv.jobq i).jobId) : Numbered m' := by
  obtain ⟨hne, _, _, _, rfl⟩ := jobQueueTake_some htake
  refine ⟨?_, ?_, ?_, fun t ht => ?_⟩
  · rw [hhead, haccepted, ← h.head]
    rfl
  · rw [htail, Server.advanceTail_jobTail, Server.writeSlot_jobTail, h.tail, slotOf_succ,
      hpopped]
  · rw [haccepted, hpopped]
    exact h.popped_lt hne
  · have hmark : ((m.srv.writeSlot m.srv.jobTail (m.srv.jobq m.srv.jobTail).start).jobq
        (slotOf t)).jobId = (m.srv.jobq (slotOf t)).jobId :=
      Server.writeSlot_field _ (·.jobId) (by rfl) _
    rw [hjobOf, hid, Server.advanceTail_jobq, hmark]
    exact h.owner t ((Master.owns_congr haccepted t).mp ht)

/-- **One step of the master** keeps the numbering. -/
lemma step (h : Numbered m) {numHosts : ℤ} {a : MasterAct} {ps : List Packet}
    (hstep : MasterStep numHosts m a m' ps) : Numbered m' := by
  cases hstep with
  | submit req now pcomm username => exact h.submit rfl rfl rfl rfl rfl
  | cancel jobId hhosts => exact h.of_same rfl rfl rfl rfl rfl fun _ => rfl
  | pop now hpop =>
      cases hpop with
      | take hpc htake hfits => exact h.take htake rfl rfl rfl rfl rfl fun _ => rfl
      | skip hpc htake hlarge =>
          exact h.take htake rfl rfl rfl rfl rfl (Server.writeSlot_field _ (·.jobId) (by rfl))
      | enough hpc hi hcount =>
          exact h.of_same rfl rfl rfl rfl rfl (Server.writeSlot_field _ (·.jobId) (by rfl))
      | init hpc => exact h.of_same rfl rfl rfl rfl rfl fun _ => rfl
      | empty hpc hempty => exact h
      | scan hpc hi => exact h.of_same rfl rfl rfl rfl rfl fun _ => rfl
      | again hpc hi hcount => exact h.of_same rfl rfl rfl rfl rfl fun _ => rfl
      | assign hpc hi hk hin hfree => exact h.of_same rfl rfl rfl rfl rfl fun _ => rfl
      | next hpc hi hk hbusy => exact h.of_same rfl rfl rfl rfl rfl fun _ => rfl
      | giveUp hpc hi hk => exact h.of_same rfl rfl rfl rfl rfl fun _ => rfl
      | finish hpc hi hin => exact h.of_same rfl rfl rfl rfl rfl fun _ => rfl
  | other msg job now hm2 => exact h
  | report msg job now hm2 hsrc hjob hmore => exact h.of_same rfl rfl rfl rfl rfl fun _ => rfl
  | lastReport msg job now hm2 hsrc hjob hlast =>
      exact h.of_same rfl rfl rfl rfl rfl (Server.writeSlot_field _ (·.jobId) (by rfl))
  | hostStatus msg job => exact h.of_same rfl rfl rfl rfl rfl fun _ => rfl

end Numbered

/-! ### The private copy -/

/-- The private copy of a job names its slot, and asks for as many nodes as the
slot does while the job owns it. -/
structure Labelled (m : Master) : Prop where
  numbered : Numbered m
  held : ∀ j t, m.held = some (j, t) → t < m.accepted ∧ j.slot = slotOf t ∧
    j.jobId = slotOf t ∧ (m.Owns t → j.numReqNodes = (m.srv.jobq (slotOf t)).numReqNodes)

lemma labelled_init (ips : ℤ → Bytes) : Labelled (.init ips) := ⟨numbered_init ips, nofun⟩

namespace Labelled

variable {m m' : Master}

/-- A step that keeps the copy, or ends with none, and keeps the node counts. -/
lemma of_same (h : Labelled m) (hnum : Numbered m') (haccepted : m'.accepted = m.accepted)
    (hheld : m'.held = m.held ∨ m'.held = none)
    (hneed : ∀ i, (m'.srv.jobq i).numReqNodes = (m.srv.jobq i).numReqNodes) : Labelled m' := by
  refine ⟨hnum, fun j t hj => ?_⟩
  rcases hheld with hheld | hheld
  · rw [Master.owns_congr haccepted, haccepted, hneed]
    exact h.held j t (hheld ▸ hj)
  · rw [hheld] at hj
    cases hj

/-- A SUBMIT overwrites no slot that an older job still owns. -/
lemma submit (h : Labelled m) (hnum : Numbered m') {job : BatchJobInfo}
    (haccepted : m'.accepted = m.accepted + 1) (hheld : m'.held = m.held)
    (hsrv : m'.srv = (m.srv.writeSlot m.srv.jobHead job).advanceHead) : Labelled m' := by
  refine ⟨hnum, fun j t hj => ?_⟩
  obtain ⟨hlt, hslot, hid, hneed⟩ := h.held j t (hheld ▸ hj)
  refine ⟨by omega, hslot, hid, fun ht => ?_⟩
  obtain ⟨hold, hne⟩ := ht.of_accept haccepted (ne_of_lt hlt)
  rw [← h.numbered.head] at hne
  rw [hsrv, Server.advanceHead_jobq, Server.writeSlot_jobq, Function.update_of_ne hne]
  exact hneed hold

/-- **One step of the master** keeps the labels. The job in hand changes at a pop, and then its
slot, id and node count are those of the job at the tail. -/
lemma step (h : Labelled m) {numHosts : ℤ} {a : MasterAct} {ps : List Packet}
    (hstep : MasterStep numHosts m a m' ps) : Labelled m' := by
  have hnum := h.numbered.step hstep
  cases hstep with
  | submit req now pcomm username => exact h.submit hnum rfl rfl rfl
  | cancel jobId hhosts => exact h.of_same hnum rfl (Or.inl rfl) fun _ => rfl
  | pop now hpop =>
      cases hpop with
      | init hpc => exact h.of_same hnum rfl (Or.inr rfl) fun _ => rfl
      | empty hpc hempty => exact h
      | @take j srv hpc htake hfits =>
          obtain ⟨hne, hslot, hid, hneed, rfl⟩ := jobQueueTake_some htake
          obtain ⟨howns, hjob, hjobId⟩ := h.numbered.exists_taken hne
          refine ⟨hnum, fun j' t hj => ?_⟩
          cases hj
          refine ⟨howns.1, hslot.trans hjob.symm, hid.trans (hjobId.trans hjob.symm), fun _ => ?_⟩
          rw [hneed, hjob]
          exact (Server.writeSlot_field _ (·.numReqNodes) (by rfl) _).symm
      | skip hpc htake hlarge =>
          obtain ⟨_, _, _, _, rfl⟩ := jobQueueTake_some htake
          exact h.of_same hnum rfl (Or.inr rfl) fun i =>
            (Server.writeSlot_field _ (·.numReqNodes) (by rfl) i).trans
              (Server.writeSlot_field _ (·.numReqNodes) (by rfl) i)
      | scan hpc | again hpc =>
          exact h.of_same hnum rfl (Or.inl (Master.held_of_wait hpc).symm) fun _ => rfl
      | enough hpc hi hcount =>
          exact h.of_same hnum rfl (Or.inl (Master.held_of_wait hpc).symm)
            (Server.writeSlot_field _ (·.numReqNodes) (by rfl))
      | assign hpc | next hpc | giveUp hpc =>
          exact h.of_same hnum rfl (Or.inl (Master.held_of_dispatch hpc).symm) fun _ => rfl
      | finish hpc hi hin => exact h.of_same hnum rfl (Or.inr rfl) fun _ => rfl
  | other msg job now hm2 => exact h
  | report msg job now hm2 hsrc hjob hmore => exact h.of_same hnum rfl (Or.inl rfl) fun _ => rfl
  | lastReport msg job now hm2 hsrc hjob hlast =>
      exact h.of_same hnum rfl (Or.inl rfl) (Server.writeSlot_field _ (·.numReqNodes) (by rfl))
  | hostStatus msg job => exact h.of_same hnum rfl (Or.inl rfl) fun _ => rfl

end Labelled

/-! ### The loops of the pop thread -/

/-- The dispatch loops count from one, and a job in hand asks for no more nodes
than there are. -/
structure Placing (numHosts : ℤ) (m : Master) : Prop where
  rounds : ∀ j t i k, m.pop = .dispatch j t i k → 1 ≤ i ∧ 1 ≤ k
  fits : ∀ j t, m.held = some (j, t) → j.numReqNodes ≤ numHosts

lemma placing_init (numHosts : ℤ) (ips : ℤ → Bytes) : Placing numHosts (.init ips) :=
  ⟨nofun, nofun⟩

/-- **One step of the master** keeps the loops in range. -/
lemma Placing.step {numHosts : ℤ} {m m' : Master} {a : MasterAct} {ps : List Packet}
    (h : Placing numHosts m) (hstep : MasterStep numHosts m a m' ps) : Placing numHosts m' := by
  have hrounds := h.rounds
  have hfits := h.fits
  cases hstep with
  | pop now hpop =>
      refine ⟨?_, fun j t hj => ?_⟩
      · cases hpop with
        | init | take | skip | scan | again | finish => exact nofun
        | empty => exact hrounds
        | enough =>
            intro j t i k hj
            cases hj
            exact ⟨le_rfl, le_rfl⟩
        | assign hpc | giveUp hpc =>
            have hround := (hrounds _ _ _ _ hpc).1
            intro j t i k hj
            cases hj
            exact ⟨by omega, le_rfl⟩
        | next hpc =>
            have hround := hrounds _ _ _ _ hpc
            intro j t i k hj
            cases hj
            exact ⟨hround.1, by omega⟩
      · rcases hpop.held_cases with hnone | ⟨hsame, -⟩ | ⟨j', srv, -, hle, htaken, -⟩
        · rw [hnone] at hj
          cases hj
        · exact hfits j t (hsame ▸ hj)
        · rw [htaken] at hj
          cases hj
          exact hle
  | _ => exact ⟨hrounds, hfits⟩

/-! ### Invariants of the master, in the cluster -/

/-- What the step of the cluster does to the master. -/
lemma master_sysStep {numHosts : ℤ} {accepts : Network} {s s' : Sys} {l : SysAct}
    (h : SysStep numHosts accepts s l s') :
    s'.master = s.master ∨ ∃ a ps, l.masterAct numHosts = some a ∧
      s.master.step numHosts a = some (s'.master, ps) := by
  cases h with
  | request hl hreq hm => exact Or.inr ⟨_, _, hl, hm⟩
  | result hp hport hl hm => exact Or.inr ⟨_, [], hl, congrArg (Option.map (·, [])) hm⟩
  | hostStatus hp hport hl hm => exact Or.inr ⟨_, [], hl, congrArg (Option.map (·, [])) hm⟩
  | receive hp hport hhost hk hn => exact Or.inl rfl
  | cancelNode hp hport hhost hk hn => exact Or.inl rfl
  | node hk hn => exact Or.inl rfl

/-- **The induction rule for the master**: what every guarded step of the master
keeps holds along every guarded run of the cluster, whatever the network does. -/
theorem cluster_invariant {numHosts : ℤ} {accepts : Network} {ips : ℤ → Bytes}
    {G : Master → MasterAct → Prop} {I : Master → Prop} (hinit : I (.init ips))
    (hstep : ∀ m a m' ps, I m → G m a → MasterStep numHosts m a m' ps → I m') {s : Sys}
    (h : (clusterMachine numHosts accepts ips).Reach (OnMaster numHosts G) s) : I s.master := by
  refine h.invariant (I := fun s => I s.master) hinit fun s l s' _ hI hg hs => ?_
  rcases master_sysStep (sysStep_spec hs) with heq | ⟨a, ps, ha, hm⟩
  · rw [heq]
    exact hI
  · exact hstep _ _ _ _ hI (hg a ha) (masterStep_spec hm)

end Epbs
