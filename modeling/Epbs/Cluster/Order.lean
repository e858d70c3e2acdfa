/-
The order in which the jobs are dispatched.

* `Master.dispatched`: the jobs of the submit messages sent so far, latest first;
* `Master.waitingJobs`: the jobs in the queue;
* `TakenInOrder`: while every SUBMIT finds room the pop thread takes the jobs by their numbers,
  and has sent nothing for a job that it has not taken yet;
* `TakenInOrder.step`: every guarded step of the master keeps that;
* `dispatched_in_order`: no job overtakes an earlier one, along any run of the cluster and
  over any network.
-/
import Epbs.Cluster.Completion

namespace Epbs

/-! ### The jobs that were sent -/

/-- The job of a submit message. -/
def Event.assignedJob : Event → Option ℕ
  | .assigned job _ => some job
  | _ => none

/-- The jobs of the submit messages sent so far, latest first. -/
def Master.dispatched (m : Master) : List ℕ := m.log.filterMap Event.assignedJob

/-- The jobs that wait in the queue, from the tail up to the head. -/
def Master.waitingJobs (m : Master) : List ℕ :=
  Ring.contents maxJobQueue m.jobOf m.srv.jobTail m.srv.jobHead

/-- **No job overtakes an earlier one**: the queue holds the jobs from the number `popped` on,
in the order in which they were submitted, so those taken are the first `popped` ones, and the
one in hand is the last of them; the submit messages were sent in the order of the jobs, and
the pop thread has let go of every job before one that was sent. -/
structure Master.InTurn (m : Master) : Prop where
  popped_le : m.popped ≤ m.accepted
  waiting : m.waitingJobs = List.range' m.popped (m.accepted - m.popped)
  held : ∀ j t, m.held = some (j, t) → t + 1 = m.popped
  sent : ∀ t ∈ m.dispatched, t < m.popped
  sorted : m.dispatched.Pairwise (· ≥ ·)
  earlier : ∀ t ∈ m.dispatched, ∀ u < t, m.Dispatched u

/-! ### The invariant -/

/-- The job in hand is the last one taken, the jobs sent were taken, and nothing was sent
yet for a job in the waiting loop. -/
structure TakenInOrder (m : Master) : Prop where
  numbered : Numbered m
  room : m.accepted < m.popped + maxJobQueue
  current : ∀ j t, m.held = some (j, t) → t + 1 = m.popped
  sent : ∀ t ∈ m.dispatched, t < m.popped
  fresh : ∀ j t count i, m.pop = .wait j t count i → t ∉ m.dispatched
  sorted : m.dispatched.Pairwise (· ≥ ·)

lemma takenInOrder_init (ips : ℤ → Bytes) : TakenInOrder (.init ips) where
  numbered := numbered_init ips
  room := show 0 < 0 + maxJobQueue by decide
  current := nofun
  sent t ht := by cases ht
  fresh := nofun
  sorted := .nil

namespace TakenInOrder

variable {m m' : Master}

/-- A step that takes no job and sends no submit message. -/
lemma of_same (h : TakenInOrder m) (hnum : Numbered m')
    (hroom : m'.accepted < m'.popped + maxJobQueue) (hpopped : m'.popped = m.popped)
    (hsent : m'.dispatched = m.dispatched) (hheld : m'.held = none ∨ m'.held = m.held)
    (hwait : ∀ j t count i, m'.pop = .wait j t count i →
      ∃ count' i', m.pop = .wait j t count' i') : TakenInOrder m' := by
  refine ⟨hnum, hroom, fun j t hj => ?_, ?_, fun j t count i hpc => ?_, ?_⟩
  · rw [hpopped]
    rcases hheld with hnone | hsame
    · rw [hnone] at hj
      cases hj
    · exact h.current j t (hsame ▸ hj)
  · rw [hsent, hpopped]
    exact h.sent
  · obtain ⟨count', i', hpc'⟩ := hwait j t count i hpc
    rw [hsent]
    exact h.fresh j t count' i' hpc'
  · rw [hsent]
    exact h.sorted

/-- A SUBMIT that finds room leaves room for one job less. -/
lemma room_submit (h : TakenInOrder m) (hroom : ¬ queueFull m.srv) :
    m.accepted + 1 < m.popped + maxJobQueue := by
  have hle := h.room
  refine lt_of_le_of_ne hle fun hfull => hroom ?_
  rw [queueFull, h.numbered.head, h.numbered.tail, slotOf_succ, slotOf_eq_iff]
  rw [hfull, Nat.add_mod_right]

/-- The job that a pop takes is the next one. -/
lemma taken (h : TakenInOrder m) (hne : m.srv.jobHead ≠ m.srv.jobTail) :
    m.jobOf m.srv.jobTail = m.popped := by
  have howns : m.Owns m.popped := ⟨h.numbered.popped_lt hne, h.room.le⟩
  rw [h.numbered.tail]
  exact (h.numbered.owner m.popped howns).1

/-- The next job is taken. -/
lemma take (h : TakenInOrder m) (hnum : Numbered m') (haccepted : m'.accepted = m.accepted)
    (hpopped : m'.popped = m.popped + 1) (hsent : m'.dispatched = m.dispatched)
    (hheld : ∀ j t, m'.held = some (j, t) → t = m.popped)
    (hwait : ∀ j t count i, m'.pop = .wait j t count i → m'.held = some (j, t)) :
    TakenInOrder m' := by
  have hroom := h.room
  refine ⟨hnum, by omega, fun j t hj => ?_, fun t ht => ?_, fun j t count i hpc ht => ?_, ?_⟩
  · rw [hheld j t hj, hpopped]
  · have hlt := h.sent t (hsent ▸ ht)
    omega
  · have hlt := h.sent t (hsent ▸ ht)
    rw [hheld j t (hwait j t count i hpc)] at hlt
    exact lt_irrefl _ hlt
  · rw [hsent]
    exact h.sorted

/-- A submit message for the job in hand: every job sent before was taken before. -/
lemma assign (h : TakenInOrder m) (hnum : Numbered m') {j : PoppedJob} {t : ℕ}
    (hheld : m.held = some (j, t)) (haccepted : m'.accepted = m.accepted)
    (hpopped : m'.popped = m.popped) (hsent : m'.dispatched = t :: m.dispatched)
    (hheld' : m'.held = m.held) (hwait : ∀ j t count i, m'.pop ≠ .wait j t count i) :
    TakenInOrder m' := by
  have hcur := h.current j t hheld
  refine ⟨hnum, ?_, ?_, ?_, fun j t count i hpc => absurd hpc (hwait j t count i), ?_⟩
  · rw [haccepted, hpopped]
    exact h.room
  · rw [hheld', hpopped]
    exact h.current
  · rw [hsent, hpopped]
    exact List.forall_mem_cons.mpr ⟨by omega, h.sent⟩
  · rw [hsent]
    refine List.pairwise_cons.mpr ⟨fun u hu => ?_, h.sorted⟩
    have hlt := h.sent u hu
    omega

/-- A step of the pop thread. Only a job that is taken moves the order on, and only a submit
message adds to what was sent; every other step is `of_same`. -/
lemma popStep (h : TakenInOrder m) (hnum : Numbered m') {numHosts now : ℤ} {ps : List Packet}
    (hstep : PopStep numHosts now m m' ps) : TakenInOrder m' := by
  cases hstep with
  | init hpc => exact h.of_same hnum h.room rfl rfl (.inl rfl) nofun
  | empty hpc hempty => exact h
  | take hpc htake hfits =>
      obtain ⟨hne, -⟩ := jobQueueTake_some htake
      refine h.take hnum rfl rfl rfl (fun j t hj => ?_) fun j t count i hj => ?_
      · cases hj
        exact h.taken hne
      · cases hj
        rfl
  | skip hpc htake hlarge => exact h.take hnum rfl rfl rfl nofun nofun
  | scan hpc hi =>
      refine h.of_same hnum h.room rfl rfl (.inr (Master.held_of_wait hpc).symm) ?_
      intro j t count i hj
      cases hj
      exact ⟨_, _, hpc⟩
  | again hpc hi hcount =>
      refine h.of_same hnum h.room rfl rfl (.inr (Master.held_of_wait hpc).symm) ?_
      intro j t count i hj
      cases hj
      exact ⟨_, _, hpc⟩
  | enough hpc hi hcount =>
      exact h.of_same hnum h.room rfl rfl (.inr (Master.held_of_wait hpc).symm) nofun
  | assign hpc hi hk hin hfree =>
      exact h.assign hnum (Master.held_of_dispatch hpc) rfl rfl rfl
        (Master.held_of_dispatch hpc).symm nofun
  | next hpc hi hk hbusy =>
      exact h.of_same hnum h.room rfl rfl (.inr (Master.held_of_dispatch hpc).symm) nofun
  | giveUp hpc hi hk =>
      exact h.of_same hnum h.room rfl rfl (.inr (Master.held_of_dispatch hpc).symm) nofun
  | finish hpc hi hin => exact h.of_same hnum h.room rfl rfl (.inl rfl) nofun

/-- **One guarded step of the master** keeps the order. -/
lemma step (h : TakenInOrder m) {numHosts : ℤ} {a : MasterAct} {ps : List Packet}
    (hg : QueueHasRoom m a) (hstep : MasterStep numHosts m a m' ps) : TakenInOrder m' := by
  have hnum := h.numbered.step hstep
  have hwait : ∀ j t count i, m.pop = .wait j t count i →
      ∃ count' i', m.pop = .wait j t count' i' := fun _ _ count i hpc => ⟨count, i, hpc⟩
  cases hstep with
  | submit req now pcomm username =>
      exact h.of_same hnum (h.room_submit hg.2) rfl rfl (.inr rfl) hwait
  | cancel jobId hhosts =>
      refine h.of_same hnum h.room rfl ?_ (.inr rfl) hwait
      simp [Master.dispatched, List.filterMap_map, Function.comp_def, Event.assignedJob]
  | pop now hpop => exact h.popStep hnum hpop
  | other msg job now hm2 => exact h
  | report msg job now hm2 hsrc hjob hmore =>
      exact h.of_same hnum h.room rfl rfl (.inr rfl) hwait
  | lastReport msg job now hm2 hsrc hjob hlast =>
      exact h.of_same hnum h.room rfl rfl (.inr rfl) hwait
  | hostStatus msg job => exact h.of_same hnum h.room rfl rfl (.inr rfl) hwait

/-- The queue holds the jobs that were submitted and not taken, in their order. -/
lemma waitingJobs_eq (h : TakenInOrder m) :
    m.waitingJobs = List.range' m.popped (m.accepted - m.popped) := by
  have hle := h.numbered.popped_le
  have hroom := h.room
  -- the distance between the indices is the number of jobs that wait
  have hdist : ((m.srv.jobHead - m.srv.jobTail) % maxJobQueue).toNat
      = m.accepted - m.popped := by
    rw [h.numbered.head, h.numbered.tail, slotOf, slotOf, ← Int.sub_emod]
    rw [Int.emod_eq_of_lt (by omega) (by omega)]
    omega
  rw [Master.waitingJobs, Ring.contents, hdist, List.range'_eq_map_range]
  refine List.map_congr_left fun i hi => ?_
  -- each of them has its slot still
  have hlt := List.mem_range.mp hi
  have howns : m.Owns (m.popped + i) := ⟨by omega, by omega⟩
  have hslot : (m.srv.jobTail + (i : ℤ)) % maxJobQueue = slotOf (m.popped + i) := by
    rw [h.numbered.tail, slotOf, slotOf, Int.emod_add_emod]
    push_cast
    rfl
  rw [hslot]
  exact (h.numbered.owner _ howns).1

/-- The order of the jobs that wait, of those sent, and of those let go of. -/
lemma inTurn (h : TakenInOrder m) : m.InTurn := by
  refine ⟨h.numbered.popped_le, h.waitingJobs_eq, h.current, h.sent, h.sorted,
    fun t ht u hut => ⟨?_, fun j hheld => ?_⟩⟩
  · exact hut.trans (h.sent t ht)
  · have hcur := h.current j u hheld
    have hlt := h.sent t ht
    omega

end TakenInOrder

/-! ### The cluster -/

/-- **First come, first served.** Along every run in which each SUBMIT finds room in the
queue and the copies fit, and over any network, the jobs taken so far are the first ones
submitted and the others wait in their order; submit messages are sent in the order in which
the jobs were submitted, and the pop thread is done with all earlier jobs before it sends
one. -/
theorem dispatched_in_order {numHosts : ℤ} {accepts : Network} {ips : ℤ → Bytes} {s : Sys}
    (h : (clusterMachine numHosts accepts ips).Reach (OnMaster numHosts QueueHasRoom) s) :
    s.master.InTurn := by
  have hinv : TakenInOrder s.master :=
    cluster_invariant (takenInOrder_init ips) (fun _ _ _ _ hI hg hs => hI.step hg hs) h
  exact hinv.inTurn

/-- Of four jobs for one node each two are given to the two nodes of a cluster, and the third
is taken. -/
def assignBoth : List SysAct :=
  List.replicate 4 submitOne ++ List.replicate 15 (.pop 0)

/-- The two jobs were sent one after the other, the third is in hand, the fourth waits. -/
theorem dispatched_in_order_both : ∃ s,
    (clusterMachine 2 lossless fun _ => []).Reach (OnMaster 2 QueueHasRoom) s ∧
      s.master.dispatched = [1, 0] ∧ s.master.held.map Prod.snd = some 2 ∧
      s.master.waitingJobs = [3] ∧ s.master.InTurn := by
  have hrun : (((clusterMachine 2 lossless fun _ => []).restrict fun s l =>
      (l.masterAct 2).all fun a => decide (QueueHasRoom s.master a)).run assignBoth
        (.init fun _ => [])).any (fun s =>
          decide (s.master.dispatched = [1, 0] ∧ s.master.held.map Prod.snd = some 2 ∧
            s.master.accepted = 4)) = true := by
    decide +kernel
  obtain ⟨s, hs, hp⟩ := exists_reach_of_tested QueueHasRoom hrun
  obtain ⟨hsent, hheld, haccepted⟩ := of_decide_eq_true hp
  have horder := dispatched_in_order hs
  refine ⟨s, hs, hsent, hheld, ?_, horder⟩
  -- the job in hand is the last one taken
  obtain ⟨⟨j, t⟩, hj, rfl⟩ := Option.map_eq_some_iff.mp hheld
  rw [horder.waiting, ← horder.held j _ hj, haccepted]
  rfl

end Epbs
