/-
Machines with a partial step function, and the runs whose steps all meet a
guard:

* `Machine.run`: the state reached by a list of labels, `none` as soon as one
  of the steps is not defined;
* `Machine.Reach M G`: the states reached by runs all of whose steps meet the
  guard `G`, and `Machine.reach_of_run`: a run whose guards are checked along
  the way;
* `Machine.Reach.invariant`: the induction rule, an initial property kept by
  every guarded step holds in every state reached;
* `Machine.Reach.along`: the same rule for what comes after a reached state;
* `Machine.Reach.clocked`: the same rule for runs whose labels read a clock that does not
  go back;
* `Machine.Reach.drive`: a goal that some step always leads closer to, by a
  well-founded relation, can be reached;
* `Machine.GuardedRun`: every step of one run meets the guard; `GuardedRun.holds`
  and `guardedRun_congr_of_invariant`: what holds at its end, and two guards that
  agree under an invariant; `Reach.kept_iff`: a property that the steps of one kind keep
  and all others break;
* `Machine.Reach.simulate`: a map of states under which every guarded step of
  one machine is a guarded step of another, or nothing, carries reached states
  to reached states;
* `Machine.Simulates`, `Machine.Simulates.run`, `Machine.Simulates.reach`: a relation
  of states under which every guarded step of one machine is the same step of
  another carries runs to runs.
-/
import Mathlib.Logic.Basic
import Mathlib.Order.Defs.PartialOrder
import Mathlib.Tactic.Common

universe u v

/-- A machine: an initial state and a partial step for each label. -/
structure Machine (σ : Type u) (ℓ : Type v) where
  init : σ
  step : ℓ → σ → Option σ

namespace Machine

variable {σ τ : Type*} {ℓ κ : Type*}

/-- The state reached from `s` by the labels in order. -/
def run (M : Machine σ ℓ) : List ℓ → σ → Option σ
  | [], s => some s
  | l :: ls, s => (M.step l s).bind (run M ls)

lemma run_append (M : Machine σ ℓ) (ls ls' : List ℓ) (s : σ) :
    M.run (ls ++ ls') s = (M.run ls s).bind (M.run ls') := by
  induction ls generalizing s with
  | nil => rfl
  | cons l ls ih =>
      show (M.step l s).bind (M.run (ls ++ ls')) = ((M.step l s).bind (M.run ls)).bind (M.run ls')
      rw [Option.bind_assoc]
      exact congrArg _ (funext ih)

/-- The states reached by runs whose steps all meet the guard. -/
inductive Reach (M : Machine σ ℓ) (G : σ → ℓ → Prop) : σ → Prop
  | init : Reach M G M.init
  | step {s s' : σ} {l : ℓ} (h : Reach M G s) (hg : G s l)
      (hs : M.step l s = some s') : Reach M G s'

/-- No guard: every run counts. -/
def always (_ : σ) (_ : ℓ) : Prop := True

variable {M : Machine σ ℓ} {N : Machine τ κ} {G G' : σ → ℓ → Prop} {H : τ → κ → Prop}

/-- The induction rule for guarded runs; the step may use that the state it
starts from was reached. -/
theorem Reach.invariant {I : σ → Prop} (hinit : I M.init)
    (hstep : ∀ s l s', Reach M G s → I s → G s l → M.step l s = some s' → I s')
    {s : σ} (h : Reach M G s) : I s := by
  induction h with
  | init => exact hinit
  | step h hg hs ih => exact hstep _ _ _ h ih hg hs

/-- A weaker guard reaches at least the same states. -/
lemma Reach.mono (hG : ∀ s l, G s l → G' s l) {s : σ} (h : Reach M G s) :
    Reach M G' s := by
  induction h with
  | init => exact .init
  | step _ hg hs ih => exact .step ih (hG _ _ hg) hs

/-- Every step that a list of labels takes meets the guard. -/
def GuardedRun (M : Machine σ ℓ) (G : σ → ℓ → Prop) : List ℓ → σ → Prop
  | [], _ => True
  | l :: ls, s => ∀ s', M.step l s = some s' → G s l ∧ GuardedRun M G ls s'

/-- A guarded run from a reached state ends in a reached state. -/
lemma Reach.run {s s' : σ} {ls : List ℓ} (h : Reach M G s)
    (hg : GuardedRun M G ls s) (hs : M.run ls s = some s') : Reach M G s' := by
  induction ls generalizing s with
  | nil =>
      cases hs
      exact h
  | cons l ls ih =>
      obtain ⟨t, ht, hrest⟩ := Option.bind_eq_some_iff.mp hs
      exact ih (h.step (hg t ht).1 ht) (hg t ht).2 hrest

/-- **The rule for the states behind a reached one**: what holds there and is kept by every
guarded step from a reached state holds at the end of a guarded run. -/
lemma Reach.along {P : σ → Prop} {s s' : σ} {ls : List ℓ} (h : Reach M G s)
    (hg : GuardedRun M G ls s) (hrun : M.run ls s = some s') (hP : P s)
    (hstep : ∀ s l s', Reach M G s → G s l → M.step l s = some s' → P s → P s') : P s' := by
  induction ls generalizing s with
  | nil =>
      cases hrun
      exact hP
  | cons l ls ih =>
      obtain ⟨t, ht, hrest⟩ := Option.bind_eq_some_iff.mp hrun
      exact ih (h.step (hg t ht).1 ht) (hg t ht).2 hrest (hstep s l t h (hg t ht).1 ht hP)

/-- **The rule for runs that read a clock.**  An invariant with a bound on the readings so far
that is kept by every guarded step, if its reading is not below the bound, holds at the end of
a guarded run whose readings do not go back. -/
lemma Reach.clocked {α : Type*} [Preorder α] {time : ℓ → Option α} {I : α → σ → Prop} {c : α}
    {s s' : σ} {ls : List ℓ} (h : Reach M G s) (hg : GuardedRun M G ls s)
    (hrun : M.run ls s = some s') (hclock : (c :: ls.filterMap time).Pairwise (· ≤ ·))
    (hI : I c s)
    (hstep : ∀ s l s' c, Reach M G s → G s l → M.step l s = some s' →
      (∀ now ∈ time l, c ≤ now) → I c s → I ((time l).getD c) s') : ∃ c', I c' s' := by
  induction ls generalizing s c with
  | nil =>
      cases hrun
      exact ⟨c, hI⟩
  | cons l ls ih =>
      obtain ⟨t, ht, hrest⟩ := Option.bind_eq_some_iff.mp hrun
      refine ih (h.step (hg t ht).1 ht) (hg t ht).2 hrest ?_
        (hstep s l t c h (hg t ht).1 ht (fun now hnow => ?_) hI)
      · cases hnow : time l with
        | none => rwa [List.filterMap_cons_none hnow] at hclock
        | some now =>
            rw [List.filterMap_cons_some hnow] at hclock
            exact (List.pairwise_cons.mp hclock).2
      · rw [List.filterMap_cons_some hnow] at hclock
        exact (List.pairwise_cons.mp hclock).1 now List.mem_cons_self

/-- **The rule for what can still be reached**: if from every reached state short of the goal a
step leads closer to it, some run of such steps leads to it. -/
lemma Reach.drive {r : σ → σ → Prop} (hwf : WellFounded r) (hG : ∀ s l, G' s l → G s l)
    {I P : σ → Prop} (hstep : ∀ s, Reach M G s → I s → ¬ P s →
      ∃ l s', G' s l ∧ M.step l s = some s' ∧ I s' ∧ r s' s)
    {s : σ} (h : Reach M G s) (hI : I s) :
    ∃ ls s', GuardedRun M G' ls s ∧ M.run ls s = some s' ∧ Reach M G s' ∧ I s' ∧ P s' := by
  induction s using hwf.induction with
  | h s ih =>
      by_cases hP : P s
      · exact ⟨[], s, trivial, rfl, h, hI, hP⟩
      · obtain ⟨l, t, hg, hs, hI', hlt⟩ := hstep s h hI hP
        obtain ⟨ls, s', hguard, hrun, hend⟩ := ih t hlt (h.step (hG s l hg) hs) hI'
        refine ⟨l :: ls, s', fun u hu => ?_, Option.bind_eq_some_iff.mpr ⟨t, hs, hrun⟩, hend⟩
        obtain rfl : t = u := Option.some.inj (hs.symm.trans hu)
        exact ⟨hg, hguard⟩

/-- Every run is guarded when there is no guard. -/
lemma guardedRun_always (M : Machine σ ℓ) (ls : List ℓ) (s : σ) :
    GuardedRun M always ls s := by
  induction ls generalizing s with
  | nil => trivial
  | cons l ls ih => exact fun s' _ => ⟨trivial, ih s'⟩

/-- The state an unguarded run from the start ends in. -/
lemma reach_of_run {ls : List ℓ} {s : σ} (h : M.run ls M.init = some s) :
    Reach M always s :=
  Reach.init.run (guardedRun_always M ls _) h

/-- Guards that agree on every step from a state with the invariant hold of the same runs,
if the guarded steps keep the invariant. -/
lemma guardedRun_congr_of_invariant {I : σ → Prop}
    (h : ∀ s l s', I s → M.step l s = some s' → (G s l ↔ G' s l))
    (hkeep : ∀ s l s', I s → G' s l → M.step l s = some s' → I s')
    {s : σ} (hs : I s) (ls : List ℓ) : GuardedRun M G ls s ↔ GuardedRun M G' ls s := by
  induction ls generalizing s with
  | nil => exact Iff.rfl
  | cons l ls ih =>
      refine forall_congr' fun s' => imp_congr_right fun hstep => ?_
      rw [h s l s' hs hstep]
      exact and_congr_right fun hg => ih (hkeep s l s' hs hg hstep)

/-- Every step meets two guards exactly when it meets each of them. -/
lemma guardedRun_and (ls : List ℓ) (s : σ) :
    GuardedRun M (fun s l => G s l ∧ G' s l) ls s ↔
      GuardedRun M G ls s ∧ GuardedRun M G' ls s := by
  induction ls generalizing s with
  | nil => exact iff_of_true trivial ⟨trivial, trivial⟩
  | cons l ls ih =>
      constructor
      · intro h
        have hrest := fun s' hs => (ih s').mp (h s' hs).2
        exact ⟨fun s' hs => ⟨(h s' hs).1.1, (hrest s' hs).1⟩,
          fun s' hs => ⟨(h s' hs).1.2, (hrest s' hs).2⟩⟩
      · rintro ⟨h, h'⟩ s' hs
        exact ⟨⟨(h s' hs).1, (h' s' hs).1⟩, (ih s').mpr ⟨(h s' hs).2, (h' s' hs).2⟩⟩

/-- What every guarded step establishes holds at the end of a guarded run. -/
lemma GuardedRun.holds {P : σ → Prop} (hstep : ∀ s l s', G s l → M.step l s = some s' → P s')
    {ls : List ℓ} {s s' : σ} (h : GuardedRun M G ls s) (hs : P s)
    (hrun : M.run ls s = some s') : P s' := by
  induction ls generalizing s with
  | nil =>
      cases hrun
      exact hs
  | cons l ls ih =>
      obtain ⟨t, ht, hrest⟩ := Option.bind_eq_some_iff.mp hrun
      exact ih (h t ht).2 (hstep s l t (h t ht).1 ht) hrest

/-- **The rule for what breaks a property.**  When every guarded step keeps the property exactly
if it meets `T`, a guarded run keeps it exactly if all its steps do. -/
lemma Reach.kept_iff {P : σ → Prop} {T : σ → ℓ → Prop} {s s' : σ} {ls : List ℓ}
    (h : Reach M G s) (hg : GuardedRun M G ls s) (hrun : M.run ls s = some s')
    (hstep : ∀ s l s', Reach M G s → G s l → M.step l s = some s' → (P s' ↔ P s ∧ T s l)) :
    P s' ↔ P s ∧ GuardedRun M T ls s := by
  induction ls generalizing s with
  | nil =>
      cases hrun
      exact ⟨fun hP => ⟨hP, trivial⟩, And.left⟩
  | cons l ls ih =>
      obtain ⟨t, ht, hrest⟩ := Option.bind_eq_some_iff.mp hrun
      rw [ih (h.step (hg t ht).1 ht) (hg t ht).2 hrest, hstep s l t h (hg t ht).1 ht, and_assoc]
      refine and_congr_right fun _ => ⟨fun hall u hu => ?_, fun hall => hall t ht⟩
      obtain rfl : t = u := Option.some.inj (ht.symm.trans hu)
      exact hall

/-- A test passed by the state a run ends in is passed by a reached state. -/
lemma exists_reach_of_run {ls : List ℓ} {p : σ → Bool}
    (h : (M.run ls M.init).any p = true) : ∃ s, Reach M always s ∧ p s = true := by
  obtain ⟨s, hs, hp⟩ := (Option.any_eq_true p _).mp h
  exact ⟨s, reach_of_run hs, hp⟩

/-- **The simulation rule.** When every guarded step of `M` from a reached
state is matched by a guarded step of `N` between the images, or leaves the
image as it was, the image of a reached state is reached. -/
theorem Reach.simulate {f : σ → τ} (hinit : f M.init = N.init)
    (hstep : ∀ s l s', Reach M G s → Reach N H (f s) → G s l → M.step l s = some s' →
      f s' = f s ∨ ∃ k, H (f s) k ∧ N.step k (f s) = some (f s'))
    {s : σ} (h : Reach M G s) : Reach N H (f s) := by
  induction h with
  | init =>
      rw [hinit]
      exact .init
  | step h hg hs ih =>
      rcases hstep _ _ _ h ih hg hs with heq | ⟨k, hk, hN⟩
      · rw [heq]
        exact ih
      · exact ih.step hk hN

/-- A relation under which every guarded step of `M` is the same step of `N`, which meets its
guard there. -/
def Simulates (M : Machine σ ℓ) (N : Machine τ ℓ) (G : σ → ℓ → Prop) (H : τ → ℓ → Prop)
    (R : σ → τ → Prop) : Prop :=
  ∀ s t l s', R s t → G s l → M.step l s = some s' →
    ∃ t', H t l ∧ N.step l t = some t' ∧ R s' t'

namespace Simulates

variable {K : Machine τ ℓ} {H : τ → ℓ → Prop} {R : σ → τ → Prop}

/-- A guarded run of `M` is a guarded run of `K`, between related states. -/
lemma run (h : Simulates M K G H R) {ls : List ℓ} {s s' : σ} {t : τ} (hR : R s t)
    (hg : GuardedRun M G ls s) (hrun : M.run ls s = some s') :
    ∃ t', GuardedRun K H ls t ∧ K.run ls t = some t' ∧ R s' t' := by
  induction ls generalizing s t with
  | nil =>
      cases hrun
      exact ⟨t, trivial, rfl, hR⟩
  | cons l ls ih =>
      obtain ⟨u, hu, hrest⟩ := Option.bind_eq_some_iff.mp hrun
      obtain ⟨v, hH, hv, hR'⟩ := h s t l u hR (hg u hu).1 hu
      obtain ⟨t', hguard, hend, hlast⟩ := ih hR' (hg u hu).2 hrest
      refine ⟨t', fun w hw => ?_, Option.bind_eq_some_iff.mpr ⟨v, hv, hend⟩, hlast⟩
      obtain rfl : v = w := Option.some.inj (hv.symm.trans hw)
      exact ⟨hH, hguard⟩

/-- **Forward simulation**: every reached state of `M` is related to one that `K` reaches. -/
theorem reach (h : Simulates M K G H R) (hinit : R M.init K.init) {s : σ}
    (hs : Reach M G s) : ∃ t, Reach K H t ∧ R s t := by
  induction hs with
  | init => exact ⟨K.init, .init, hinit⟩
  | step _ hg hstep ih =>
      obtain ⟨t, ht, hR⟩ := ih
      obtain ⟨t', hH, hstep', hR'⟩ := h _ t _ _ hR hg hstep
      exact ⟨t', ht.step hH hstep', hR'⟩

end Simulates

/-- The machine whose steps are tested before they are taken. -/
def restrict (M : Machine σ ℓ) (g : σ → ℓ → Bool) : Machine σ ℓ where
  init := M.init
  step l s := if g s l then M.step l s else none

/-- A run of tested steps is a run whose steps all meet the guard. -/
lemma guardedRun_of_restrict {g : σ → ℓ → Bool} (hg : ∀ s l, g s l = true → G s l)
    {ls : List ℓ} {s s' : σ} (h : (M.restrict g).run ls s = some s') :
    GuardedRun M G ls s ∧ M.run ls s = some s' := by
  induction ls generalizing s with
  | nil => exact ⟨trivial, h⟩
  | cons l ls ih =>
      obtain ⟨t, ht, hrest⟩ := Option.bind_eq_some_iff.mp h
      rw [restrict] at ht
      simp only at ht
      split_ifs at ht with htest
      obtain ⟨hguard, hrun⟩ := ih hrest
      refine ⟨fun u hu => ?_, Option.bind_eq_some_iff.mpr ⟨t, ht, hrun⟩⟩
      obtain rfl : t = u := Option.some.inj (ht.symm.trans hu)
      exact ⟨hg _ _ htest, hguard⟩

/-- A run of tested steps ends in a reached state. -/
lemma exists_reach_of_restrict {g : σ → ℓ → Bool} (hg : ∀ s l, g s l = true → G s l)
    {ls : List ℓ} {p : σ → Bool} (h : ((M.restrict g).run ls M.init).any p = true) :
    ∃ s, Reach M G s ∧ p s = true := by
  obtain ⟨s, hs, hp⟩ := exists_reach_of_run (M := M.restrict g) h
  refine ⟨s, ?_, hp⟩
  clear hp
  induction hs with
  | init => exact .init
  | step _ _ hstep ih =>
      rw [restrict] at hstep
      simp only at hstep
      split_ifs at hstep with htest
      exact ih.step (hg _ _ htest) hstep

end Machine
