/-
Batch schedulers: jobs that ask for a number of nodes each, served one after
another in the order in which they came.

* `Batch`: the jobs submitted so far, those that wait, the one that is being
  placed, who works where, and the jobs that are finished;
* `Batch.Enabled`, `Batch.after`: when a step can be taken, and what it does: a
  node is given to one job at a time, and a job is finished when its last node
  reports;
* `batchMachine`: the runs of a scheduler that serves jobs up to a capacity;
* `Batch.Sound`: what every run keeps: first come, first served, no node works
  for two jobs, and a job is finished exactly when it got all its nodes and none
  of them works any more.
-/
import Epbs.Machine.Guarded
import Mathlib.Data.Multiset.MapFold
import Mathlib.Data.Finset.Insert
import Mathlib.Tactic

/-! ### The scheduler -/

/-- The state of a scheduler: the jobs in the order they came, and the number of
nodes each asked for; the jobs that wait, oldest first; the job that is being
placed; the number of nodes each job was given; the nodes at work, each with its
job; the jobs that are finished. -/
@[ext]
structure Batch (Job Node : Type*) where
  submitted : List Job
  asked : Job → ℤ
  waiting : List Job
  placing : Option Job
  given : Job → ℕ
  work : Multiset (Job × Node)
  finished : Finset Job

/-- The steps of a scheduler: a job comes, is started or turned down, is given its nodes one by one
and placed, and the nodes report. -/
inductive BatchAct (Job Node : Type*) where
  | submit (j : Job) (nodes : ℤ)
  | start (j : Job)
  | reject (j : Job)
  | give (j : Job) (k : Node)
  | placed (j : Job)
  | report (j : Job) (k : Node)

namespace Batch

variable {Job Node : Type*} [DecidableEq Job] [DecidableEq Node]

/-- No job yet. -/
def empty (asked : Job → ℤ) : Batch Job Node where
  submitted := []
  asked := asked
  waiting := []
  placing := none
  given := fun _ => 0
  work := 0
  finished := ∅

/-- **When a step can be taken.**  A job comes once; the oldest job that waits is
started when no other is being placed, or rejected when it asks for too much; it
is given nodes that do not work, as many as it asks for; a node reports once its
job is placed. -/
def Enabled (capacity : ℤ) (b : Batch Job Node) : BatchAct Job Node → Prop
  | .submit j _ => j ∉ b.submitted
  | .start j => b.placing = none ∧ b.waiting.head? = some j ∧ b.asked j ≤ capacity
  | .reject j => b.placing = none ∧ b.waiting.head? = some j ∧ capacity < b.asked j
  | .give j k => b.placing = some j ∧ b.given j < b.asked j ∧ ∀ p ∈ b.work, p.2 ≠ k
  | .placed j => b.placing = some j ∧ b.asked j ≤ b.given j
  | .report j k => (j, k) ∈ b.work ∧ b.placing ≠ some j

instance (capacity : ℤ) (b : Batch Job Node) : (a : BatchAct Job Node) →
    Decidable (b.Enabled capacity a)
  | .submit _ _ => inferInstanceAs (Decidable (¬ _))
  | .start _ => inferInstanceAs (Decidable (_ ∧ _ ∧ _))
  | .reject _ => inferInstanceAs (Decidable (_ ∧ _ ∧ _))
  | .give _ _ => inferInstanceAs (Decidable (_ ∧ _ ∧ _))
  | .placed _ => inferInstanceAs (Decidable (_ ∧ _))
  | .report _ _ => inferInstanceAs (Decidable (_ ∧ _))

/-- **What a step does.** The nodes that a job was given are only counted; which of them still work
for it is in `work`. -/
def after (b : Batch Job Node) : BatchAct Job Node → Batch Job Node
  | .submit j nodes =>
      { b with
        submitted := b.submitted ++ [j]
        asked := Function.update b.asked j nodes
        waiting := b.waiting ++ [j] }
  | .start j => { b with waiting := b.waiting.tail, placing := some j }
  | .reject _ => { b with waiting := b.waiting.tail }
  | .give j k =>
      { b with
        given := Function.update b.given j (b.given j + 1)
        work := (j, k) ::ₘ b.work }
  | .placed _ => { b with placing := none }
  | .report j k =>
      { b with
        work := b.work.erase (j, k)
        finished :=
          if ∀ p ∈ b.work.erase (j, k), p.1 ≠ j then insert j b.finished else b.finished }

end Batch

/-- The runs of a scheduler. -/
def batchMachine {Job Node : Type*} [DecidableEq Job] [DecidableEq Node] (capacity : ℤ)
    (asked : Job → ℤ) : Machine (Batch Job Node) (BatchAct Job Node) where
  init := .empty asked
  step a b := if b.Enabled capacity a then some (b.after a) else none

namespace Batch

variable {Job Node : Type*} {capacity : ℤ} {b b' : Batch Job Node}

/-! ### What every run keeps -/

/-- **A scheduler in order**: the jobs that wait are the last ones that came, and
were given nothing; the job being placed was given no more than it asked for, and
all its nodes work; no node works for two jobs; a job that was given nodes and is
placed got what it asked for; and a job is finished exactly when it is placed and
none of its nodes works. -/
structure Sound (capacity : ℤ) (b : Batch Job Node) : Prop where
  nodup : b.submitted.Nodup
  order : b.waiting <:+ b.submitted
  fresh : ∀ j, j ∉ b.submitted ∨ j ∈ b.waiting → b.given j = 0
  placing : ∀ j, b.placing = some j → j ∈ b.submitted ∧ j ∉ b.waiting ∧
    b.asked j ≤ capacity ∧ (b.given j = 0 ∨ b.given j ≤ b.asked j ∧ ∃ k, (j, k) ∈ b.work)
  nodes : (b.work.map Prod.snd).Nodup
  given : ∀ p ∈ b.work, 0 < b.given p.1
  complete : ∀ j, 0 < b.given j → b.placing ≠ some j →
    b.given j = b.asked j ∧ b.asked j ≤ capacity
  finished : ∀ j, j ∈ b.finished ↔
    0 < b.given j ∧ b.placing ≠ some j ∧ ∀ p ∈ b.work, p.1 ≠ j

lemma sound_empty (capacity : ℤ) (asked : Job → ℤ) :
    Sound capacity (empty asked : Batch Job Node) where
  nodup := List.nodup_nil
  order := List.suffix_rfl
  fresh _ _ := rfl
  placing := nofun
  nodes := Multiset.nodup_zero
  given p hp := absurd hp (Multiset.notMem_zero p)
  complete _ hj := absurd hj (lt_irrefl 0)
  finished j := ⟨fun h => absurd h (Finset.notMem_empty j), fun h => absurd h.1 (lt_irrefl 0)⟩

namespace Sound

variable {j : Job} {k : Node}

/-- The oldest job that waits leaves the queue; it is placed next, or not at all. -/
lemma leave (h : Sound capacity b) (hidle : b.placing = none) (hhead : b.waiting.head? = some j)
    {next : Option Job} (hnext : ∀ i, next = some i → i = j ∧ b.asked j ≤ capacity) :
    Sound capacity { b with waiting := b.waiting.tail, placing := next } := by
  obtain ⟨js, hjs⟩ : ∃ js, b.waiting = j :: js := ⟨_, List.eq_cons_of_mem_head? hhead⟩
  have hwait : j ∈ b.waiting := hjs ▸ List.mem_cons_self
  have hzero := h.fresh j (.inr hwait)
  have hnodup := h.nodup.sublist h.order.sublist
  have hplacing : ∀ i, next ≠ some i ∨ b.given i = 0 := by
    intro i
    by_cases hi : next = some i
    · exact .inr ((hnext i hi).1 ▸ hzero)
    · exact .inl hi
  rw [hjs] at hnodup
  refine ⟨h.nodup, (List.tail_suffix _).trans h.order, fun i hi => ?_, fun i hi => ?_, h.nodes,
    h.given, fun i hpos _ => ?_, fun i => ?_⟩
  · exact h.fresh i (hi.imp_right fun hmem => (List.tail_subset _) hmem)
  · obtain ⟨rfl, hfits⟩ := hnext i hi
    refine ⟨h.order.subset hwait, ?_, hfits, .inl hzero⟩
    rw [hjs]
    exact (List.nodup_cons.mp hnodup).1
  · exact h.complete i hpos (by rw [hidle]; exact nofun)
  · rw [h.finished i, hidle]
    refine and_congr_right fun hpos => and_congr_left fun _ => ?_
    exact iff_of_true nofun ((hplacing i).resolve_right hpos.ne')

variable [DecidableEq Job] [DecidableEq Node]

/-- A job that comes. -/
lemma submit (h : Sound capacity b) (nodes : ℤ) (hnew : j ∉ b.submitted) :
    Sound capacity (b.after (.submit j nodes)) := by
  have hzero := h.fresh j (.inl hnew)
  have hasked : ∀ i, i ≠ j → Function.update b.asked j nodes i = b.asked i :=
    fun i hi => Function.update_of_ne hi ..
  refine ⟨?_, ?_, fun i hi => ?_, fun i hi => ?_, h.nodes, h.given, fun i hpos hi => ?_,
    h.finished⟩
  · refine List.nodup_append.mpr ⟨h.nodup, List.nodup_singleton j, fun i hi l hl => ?_⟩
    rw [List.mem_singleton.mp hl]
    exact fun heq => hnew (heq ▸ hi)
  · obtain ⟨started, hstarted⟩ := h.order
    exact ⟨started, by simp only [after, ← hstarted, List.append_assoc]⟩
  · by_cases heq : i = j
    · exact heq ▸ hzero
    · simp only [after, List.mem_append, List.mem_singleton, heq, or_false] at hi
      exact h.fresh i hi
  · obtain ⟨hin, hwait, hrest⟩ := h.placing i hi
    have hne : i ≠ j := fun heq => hnew (heq ▸ hin)
    simp only [after, hasked i hne]
    refine ⟨List.mem_append_left _ hin, ?_, hrest⟩
    simp [hwait, hne]
  · have hne : i ≠ j := by
      rintro rfl
      exact hpos.ne' hzero
    simp only [after, hasked i hne]
    exact h.complete i hpos hi

/-- A node is given to the job that is being placed. The job has work from here on, and is not
finished: it is still in the hands of the scheduler. -/
lemma give (h : Sound capacity b) (hj : b.placing = some j) (hless : b.given j < b.asked j)
    (hfree : ∀ p ∈ b.work, p.2 ≠ k) : Sound capacity (b.after (.give j k)) := by
  obtain ⟨hin, hwait, hfits, -⟩ := h.placing j hj
  have hgiven : ∀ i, i ≠ j → Function.update b.given j (b.given j + 1) i = b.given i :=
    fun i hi => Function.update_of_ne hi ..
  refine ⟨h.nodup, h.order, fun i hi => ?_, fun i hi => ?_, ?_, fun p hp => ?_,
    fun i hpos hi => ?_, fun i => ?_⟩
  · have hne : i ≠ j := by
      rintro rfl
      exact hi.elim (absurd hin) hwait
    simp only [after, hgiven i hne]
    exact h.fresh i hi
  · obtain rfl : j = i := Option.some.inj (hj.symm.trans hi)
    simp only [after, Function.update_self]
    refine ⟨hin, hwait, hfits, .inr ⟨by push_cast; omega, k, Multiset.mem_cons_self ..⟩⟩
  · simp only [after, Multiset.map_cons]
    refine Multiset.nodup_cons.mpr ⟨fun hmem => ?_, h.nodes⟩
    obtain ⟨p, hp, heq⟩ := Multiset.mem_map.mp hmem
    exact hfree p hp heq
  · simp only [after] at hp ⊢
    by_cases heq : p.1 = j
    · rw [heq, Function.update_self]
      exact Nat.succ_pos _
    · rw [hgiven _ heq]
      refine h.given p ((Multiset.mem_cons.mp hp).resolve_left ?_)
      rintro rfl
      exact heq rfl
  · have hne : i ≠ j := fun heq => hi (heq ▸ hj)
    simp only [after, hgiven i hne] at hpos ⊢
    exact h.complete i hpos hi
  · by_cases heq : i = j
    · subst heq
      refine iff_of_false (fun hfin => ?_) fun hfin => hfin.2.1 hj
      exact ((h.finished i).mp hfin).2.1 hj
    · simp only [after, hgiven i heq, Multiset.forall_mem_cons]
      rw [h.finished i]
      refine and_congr_right fun _ => and_congr_right fun _ => ?_
      exact (and_iff_right (Ne.symm heq)).symm

/-- The job that is being placed got all its nodes. -/
lemma placed (h : Sound capacity b) (hj : b.placing = some j) (hall : b.asked j ≤ b.given j) :
    Sound capacity (b.after (.placed j)) := by
  obtain ⟨hin, hwait, hfits, hnodes⟩ := h.placing j hj
  have hother : ∀ i, i ≠ j → b.placing ≠ some i := by
    intro i hi hcontra
    exact hi (Option.some.inj (hcontra.symm.trans hj))
  refine ⟨h.nodup, h.order, h.fresh, nofun, h.nodes, h.given, fun i hpos _ => ?_, fun i => ?_⟩
  · by_cases heq : i = j
    · subst heq
      obtain ⟨hle, -⟩ := hnodes.resolve_left hpos.ne'
      exact ⟨le_antisymm hle hall, hfits⟩
    · exact h.complete i hpos (hother i heq)
  · show i ∈ b.finished ↔ 0 < b.given i ∧ (none : Option Job) ≠ some i ∧ ∀ p ∈ b.work, p.1 ≠ i
    rw [h.finished i]
    by_cases heq : i = j
    · -- its nodes still work
      subst heq
      refine iff_of_false (fun hfin => hfin.2.1 hj) fun hfin => ?_
      obtain ⟨-, k, hk⟩ := hnodes.resolve_left hfin.1.ne'
      exact hfin.2.2 _ hk rfl
    · exact and_congr_right fun _ => and_congr_left fun _ => iff_of_true (hother i heq) nofun

/-- A node reports. -/
lemma report (h : Sound capacity b) (hk : (j, k) ∈ b.work) (hj : b.placing ≠ some j) :
    Sound capacity (b.after (.report j k)) := by
  have hsub : b.work.erase (j, k) ≤ b.work := Multiset.erase_le _ _
  have hkeep : ∀ i l, i ≠ j → (i, l) ∈ b.work → (i, l) ∈ b.work.erase (j, k) := by
    intro i l hi hl
    exact (Multiset.mem_erase_of_ne fun heq => hi (congrArg Prod.fst heq)).mpr hl
  refine ⟨h.nodup, h.order, h.fresh, fun i hi => ?_, ?_, fun p hp => ?_, h.complete,
    fun i => ?_⟩
  · have hne : i ≠ j := fun heq => hj (heq ▸ hi)
    obtain ⟨hin, hwait, hfits, hnodes⟩ := h.placing i hi
    refine ⟨hin, hwait, hfits, hnodes.imp_right fun ⟨hle, l, hl⟩ => ⟨hle, l, hkeep i l hne hl⟩⟩
  · exact Multiset.nodup_of_le (Multiset.map_le_map hsub) h.nodes
  · exact h.given p (Multiset.mem_of_le hsub hp)
  · simp only [after]
    by_cases heq : i = j
    · subst heq
      have hpos : 0 < b.given i := h.given _ hk
      have hnot : i ∉ b.finished := fun hfin => ((h.finished i).mp hfin).2.2 _ hk rfl
      split_ifs with hlast
      · exact iff_of_true (Finset.mem_insert_self ..) ⟨hpos, hj, hlast⟩
      · exact iff_of_false hnot fun hfin => hlast hfin.2.2
    · have hmem : i ∈ (if ∀ p ∈ b.work.erase (j, k), p.1 ≠ j then insert j b.finished
          else b.finished) ↔ i ∈ b.finished := by
        split_ifs
        · rw [Finset.mem_insert, or_iff_right heq]
        · exact Iff.rfl
      rw [hmem, h.finished i]
      refine and_congr_right fun _ => and_congr_right fun _ => ⟨fun hnone p hp => ?_, ?_⟩
      · exact hnone p (Multiset.mem_of_le hsub hp)
      · rintro hnone ⟨i', l⟩ hp rfl
        exact hnone _ (hkeep _ l heq hp) rfl

/-- **One step of the scheduler** keeps it in order. -/
lemma step (h : Sound capacity b) {a : BatchAct Job Node} (ha : b.Enabled capacity a) :
    Sound capacity (b.after a) := by
  cases a with
  | submit j nodes => exact h.submit nodes ha
  | start j =>
      obtain ⟨hidle, hhead, hfits⟩ := ha
      refine h.leave hidle hhead fun i hi => ?_
      exact ⟨(Option.some.inj hi).symm, hfits⟩
  | reject j =>
      obtain ⟨hidle, hhead, -⟩ := ha
      have hnone : ∀ i, (none : Option Job) = some i → i = j ∧ b.asked j ≤ capacity := nofun
      have hleave := h.leave hidle hhead hnone
      rw [← hidle] at hleave
      exact hleave
  | give j k => exact h.give ha.1 ha.2.1 ha.2.2
  | placed j => exact h.placed ha.1 ha.2
  | report j k => exact h.report ha.1 ha.2

end Sound

/-- **Every run** keeps the scheduler in order: the jobs that wait are the last ones that came, no
node works for two jobs, and the finished ones have no work. -/
theorem sound_of_reach [DecidableEq Job] [DecidableEq Node] {asked : Job → ℤ}
    {G : Batch Job Node → BatchAct Job Node → Prop}
    (h : (batchMachine capacity asked).Reach G b) : Sound capacity b := by
  refine h.invariant (sound_empty capacity asked) fun b a b' _ hb _ hs => ?_
  simp only [batchMachine] at hs
  split_ifs at hs with ha
  cases hs
  exact hb.step ha

end Batch
