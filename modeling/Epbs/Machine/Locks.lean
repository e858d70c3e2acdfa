/-
Threads that share a state and one lock.

* `Code`: the code of a thread, a step for each of its points, which may take the lock or
  release it;
* `LockState`, `lockMachine`: every interleaving of the threads, with the thread that holds
  the lock; an unlock releases it whoever holds it;
* `Discipline`: a thread releases the lock only while it holds it, does not ask for it while
  it holds it nor hold it where an iteration ends, and at most one thread is inside;
* `Annotated`: a table that says for each point whether the lock is held there, and the
  points that are not to be reached;
* `discipline_of_annotated`: with such a table every state reached is disciplined.
-/
import Epbs.Machine.Guarded
import Mathlib.Data.Set.Function

namespace Locks

/-- What a step does with the lock: it takes it, gives it back, or leaves it alone. -/
inductive Call where
  | lock
  | unlock
  | other
  deriving DecidableEq

/-- **The code of a thread**: where it starts, where its iterations end, and for each point
what the step there does with the lock and with the shared state; a step may take an input. -/
structure Code (σ : Type) where
  Point : Type
  Input : Type
  start : Point
  atEnd : Point → Prop
  call : Point → Call
  next : Point → Input → σ → Option (σ × Point)

variable {τ σ : Type} {code : τ → Code σ}

/-- The shared state, where the threads are, who holds the lock, and who is between its own
lock and its own unlock. -/
structure LockState (code : τ → Code σ) where
  shared : σ
  point : ∀ t, (code t).Point
  holder : Option τ
  inside : τ → Bool

/-- A step of one thread, with its input. -/
structure ThreadStep (code : τ → Code σ) where
  thread : τ
  input : (code thread).Input

/-- **The discipline of the lock**, and that at most one thread is inside. -/
structure Discipline (s : LockState code) : Prop where
  unlock : ∀ t, (code t).call (s.point t) = .unlock → s.holder = some t
  lock : ∀ t, (code t).call (s.point t) = .lock → s.holder ≠ some t
  atEnd : ∀ t, (code t).atEnd (s.point t) → s.holder ≠ some t
  exclusive : ∀ t t', s.inside t = true → s.inside t' = true → t = t'

/-! ### Tables of the points -/

/-- Whether the lock is held after a call. -/
def Call.after : Call → Bool → Bool
  | .lock, _ => true
  | .unlock, _ => false
  | .other, held => held

/-- **A table of the points**: whether the lock is held at a point, and nothing for the points
that are not to be reached by steps that meet the guard. -/
structure Annotated (c : Code σ) (guard : c.Point → σ → Prop)
    (held : c.Point → Option Bool) : Prop where
  start : held c.start = some false
  lock : ∀ p, held p ≠ none → c.call p = .lock → held p = some false
  unlock : ∀ p, held p ≠ none → c.call p = .unlock → held p = some true
  atEnd : ∀ p, held p ≠ none → c.atEnd p → held p = some false
  next : ∀ p b i s s' p', held p = some b → guard p s → c.next p i s = some (s', p') →
    held p' = some ((c.call p).after b)

/-- **What the tables say of a state**: who is at a point where the lock is held holds it and
is inside, and nobody else does or is. -/
def Obeys (held : ∀ t, (code t).Point → Option Bool) (s : LockState code) : Prop :=
  ∀ t, held t (s.point t) = some (s.inside t) ∧ (s.inside t = true ↔ s.holder = some t)

variable {guard : ∀ t, (code t).Point → σ → Prop} {held : ∀ t, (code t).Point → Option Bool}

/-- **A state that obeys the tables** is disciplined. -/
lemma Obeys.discipline (htable : ∀ t, Annotated (code t) (guard t) (held t))
    {s : LockState code} (h : Obeys held s) : Discipline s := by
  have hknown : ∀ t, held t (s.point t) ≠ none := by
    intro t
    rw [(h t).1]
    exact Option.some_ne_none _
  have hfree : ∀ t, held t (s.point t) = some false → s.holder ≠ some t := by
    intro t hout hholder
    rw [(h t).1, (h t).2.mpr hholder] at hout
    cases hout
  refine ⟨fun t hcall => ?_, fun t hcall => ?_, fun t hend => ?_, fun t t' ht ht' => ?_⟩
  · rw [← (h t).2]
    exact Option.some.inj ((h t).1.symm.trans ((htable t).unlock _ (hknown t) hcall))
  · exact hfree t ((htable t).lock _ (hknown t) hcall)
  · exact hfree t ((htable t).atEnd _ (hknown t) hend)
  · exact Option.some.inj (((h t).2.mp ht).symm.trans ((h t').2.mp ht'))

/-! ### Interleavings -/

variable [DecidableEq τ]

/-- The state after what a step does with the lock: a lock waits until the lock is free. -/
def LockState.call (t : τ) (s : LockState code) : Option (LockState code) :=
  match (code t).call (s.point t) with
  | .lock =>
      if s.holder = none then
        some { s with holder := some t, inside := Function.update s.inside t true }
      else none
  | .unlock => some { s with holder := none, inside := Function.update s.inside t false }
  | .other => some s

/-- **A step of a thread.** -/
def LockState.step (l : ThreadStep code) (s : LockState code) : Option (LockState code) :=
  ((code l.thread).next (s.point l.thread) l.input s.shared).bind fun r =>
    (s.call l.thread).map fun s' =>
      { s' with shared := r.1, point := Function.update s.point l.thread r.2 }

/-- A step that neither locks nor unlocks leaves the lock as it is. -/
lemma step_of_other {l : ThreadStep code} {s : LockState code} {r : σ × (code l.thread).Point}
    (hcall : (code l.thread).call (s.point l.thread) = .other)
    (hnext : (code l.thread).next (s.point l.thread) l.input s.shared = some r) :
    s.step l = some
      { s with shared := r.1, point := Function.update s.point l.thread r.2 } := by
  rw [LockState.step, hnext, Option.bind_some, LockState.call, hcall]
  rfl

/-- **Every interleaving** of the threads; the lock is free at the start. -/
def lockMachine (code : τ → Code σ) (shared : σ) :
    Machine (LockState code) (ThreadStep code) where
  init := ⟨shared, fun t => (code t).start, none, fun _ => false⟩
  step := LockState.step

/-- The guard of the thread that takes a step. -/
def StepGuard (guard : ∀ t, (code t).Point → σ → Prop) (s : LockState code)
    (l : ThreadStep code) : Prop :=
  guard l.thread (s.point l.thread) s.shared

/-- What a step does with the lock keeps the holder inside, and nobody else. -/
lemma call_obeys (htable : ∀ t, Annotated (code t) (guard t) (held t)) {s s' : LockState code}
    (h : Obeys held s) {t : τ} (hs : s.call t = some s') :
    s'.point = s.point ∧ s'.inside t = ((code t).call (s.point t)).after (s.inside t) ∧
      (∀ t', t' ≠ t → s'.inside t' = s.inside t') ∧
      ∀ t', (s'.inside t' = true ↔ s'.holder = some t') := by
  have hknown : held t (s.point t) ≠ none := by rw [(h t).1]; exact Option.some_ne_none _
  rw [LockState.call] at hs
  cases hcall : (code t).call (s.point t) with
  | lock =>
      simp only [hcall] at hs
      split_ifs at hs with hfree
      cases hs
      refine ⟨rfl, Function.update_self .., fun t' ht' => Function.update_of_ne ht' _ _, ?_⟩
      intro t'
      by_cases ht' : t' = t
      · subst ht'
        exact iff_of_true (Function.update_self ..) rfl
      · have hout := (h t').2
        rw [hfree] at hout
        show Function.update s.inside t true t' = true ↔ some t = some t'
        rw [Function.update_of_ne ht', hout]
        exact iff_of_false (Option.some_ne_none t').symm fun heq => ht' (Option.some.inj heq).symm
  | unlock =>
      simp only [hcall] at hs
      cases hs
      refine ⟨rfl, Function.update_self .., fun t' ht' => Function.update_of_ne ht' _ _, ?_⟩
      -- the thread held the lock, so nobody else was inside
      have hholder : s.holder = some t := by
        rw [← (h t).2]
        exact Option.some.inj ((h t).1.symm.trans ((htable t).unlock _ hknown hcall))
      intro t'
      by_cases ht' : t' = t
      · subst ht'
        show Function.update s.inside t' false t' = true ↔ none = some t'
        rw [Function.update_self]
        exact iff_of_false Bool.false_ne_true (Option.some_ne_none t').symm
      · show Function.update s.inside t false t' = true ↔ none = some t'
        rw [Function.update_of_ne ht', (h t').2, hholder]
        exact iff_of_false (fun heq => ht' (Option.some.inj heq).symm) (Option.some_ne_none t').symm
  | other =>
      simp only [hcall] at hs
      cases hs
      exact ⟨rfl, rfl, fun t' _ => rfl, fun t' => (h t').2⟩

/-- A step that meets its guard keeps what the tables say. -/
lemma step_obeys (htable : ∀ t, Annotated (code t) (guard t) (held t)) {s s' : LockState code}
    (h : Obeys held s) {l : ThreadStep code} (hguard : StepGuard guard s l)
    (hs : s.step l = some s') : Obeys held s' := by
  obtain ⟨⟨shared, p⟩, hnext, hs⟩ := Option.bind_eq_some_iff.mp hs
  obtain ⟨s₁, hcall, rfl⟩ := Option.map_eq_some_iff.mp hs
  obtain ⟨-, hself, hothers, hholder⟩ := call_obeys htable h hcall
  intro t
  refine ⟨?_, hholder t⟩
  by_cases ht : t = l.thread
  · subst ht
    show held l.thread (Function.update s.point l.thread p l.thread) = some (s₁.inside l.thread)
    rw [Function.update_self, hself]
    exact (htable l.thread).next _ _ _ _ _ _ (h l.thread).1 hguard hnext
  · show held t (Function.update s.point l.thread p t) = some (s₁.inside t)
    rw [Function.update_of_ne ht, hothers t ht]
    exact (h t).1

/-- **Every state reached is disciplined**, by steps that meet the guard of a table. -/
theorem discipline_of_annotated (htable : ∀ t, Annotated (code t) (guard t) (held t))
    {shared : σ} {s : LockState code}
    (h : (lockMachine code shared).Reach (StepGuard guard) s) : Discipline s := by
  refine Obeys.discipline htable (h.invariant (I := Obeys held) ?_ ?_)
  · exact fun t => ⟨(htable t).start, iff_of_false Bool.false_ne_true (Option.some_ne_none t).symm⟩
  · exact fun s l s' _ hs hguard hstep => step_obeys htable hs hguard hstep

end Locks
