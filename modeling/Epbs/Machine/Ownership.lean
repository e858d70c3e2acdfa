/-
Owners of resources, each resource with one owner.

* `SingleOwner`: what an owner holds is live, and no other owner holds it; `SingleOwner.take`,
  `SingleOwner.drop`, `SingleOwner.close`: an owner takes a resource that is not live, forgets its
  own, or closes it;
* `NoneLost`: every live resource has an owner; `noneLost_take_iff`, `noneLost_drop_iff`,
  `noneLost_close_iff`: what that asks of each of these steps.
-/
import Mathlib.Data.Set.Insert
import Mathlib.Logic.Function.Basic

namespace Ownership

variable {α β : Type*} [DecidableEq α]

/-- What an owner holds is live, and has no other owner. -/
structure SingleOwner (hold : α → Option β) (live : Set β) : Prop where
  live : ∀ a b, hold a = some b → b ∈ live
  unique : ∀ a a' b, hold a = some b → hold a' = some b → a = a'

/-- Every live resource has an owner. -/
def NoneLost (hold : α → Option β) (live : Set β) : Prop := ∀ b ∈ live, ∃ a, hold a = some b

variable {hold : α → Option β} {live : Set β} {a a' : α} {b b' : β}

/-- What is held after an owner is given something. -/
lemma update_eq_some_iff {x : Option β} :
    Function.update hold a x a' = some b ↔ (a' = a ∧ x = some b) ∨ (a' ≠ a ∧ hold a' = some b) := by
  by_cases heq : a' = a
  · subst heq
    rw [Function.update_self]
    exact ⟨fun hx => .inl ⟨rfl, hx⟩, fun h => h.elim And.right fun h => absurd rfl h.1⟩
  · rw [Function.update_of_ne heq]
    exact ⟨fun hb => .inr ⟨heq, hb⟩, fun h => h.elim (fun h => absurd h.1 heq) And.right⟩

namespace SingleOwner

/-- An owner takes a resource that is not live yet. -/
lemma take (h : SingleOwner hold live) (a : α) (hb : b ∉ live) :
    SingleOwner (Function.update hold a (some b)) (insert b live) := by
  refine ⟨fun a' b' hold' => ?_, fun a₁ a₂ b' h₁ h₂ => ?_⟩
  · rcases update_eq_some_iff.mp hold' with ⟨-, hx⟩ | ⟨-, hx⟩
    · cases hx
      exact Set.mem_insert b live
    · exact Set.mem_insert_of_mem b (h.live a' b' hx)
  · rcases update_eq_some_iff.mp h₁ with ⟨rfl, hx₁⟩ | ⟨hne₁, hx₁⟩
    · cases hx₁
      rcases update_eq_some_iff.mp h₂ with ⟨rfl, -⟩ | ⟨-, hx₂⟩
      · rfl
      · exact absurd (h.live a₂ b hx₂) hb
    · rcases update_eq_some_iff.mp h₂ with ⟨rfl, hx₂⟩ | ⟨-, hx₂⟩
      · cases hx₂
        exact absurd (h.live a₁ b hx₁) hb
      · exact h.unique a₁ a₂ b' hx₁ hx₂

/-- An owner forgets what it holds. -/
lemma drop (h : SingleOwner hold live) (a : α) :
    SingleOwner (Function.update hold a none) live := by
  refine ⟨fun a' b' hold' => ?_, fun a₁ a₂ b' h₁ h₂ => ?_⟩
  · rcases update_eq_some_iff.mp hold' with ⟨-, hx⟩ | ⟨-, hx⟩
    · cases hx
    · exact h.live a' b' hx
  · rcases update_eq_some_iff.mp h₁ with ⟨-, hx₁⟩ | ⟨-, hx₁⟩
    · cases hx₁
    · rcases update_eq_some_iff.mp h₂ with ⟨-, hx₂⟩ | ⟨-, hx₂⟩
      · cases hx₂
      · exact h.unique a₁ a₂ b' hx₁ hx₂

/-- An owner closes what it holds. -/
lemma close (h : SingleOwner hold live) (ha : hold a = some b) :
    SingleOwner (Function.update hold a none) (live \ {b}) := by
  refine ⟨fun a' b' hold' => ⟨(h.drop a).live a' b' hold', fun heq => ?_⟩, (h.drop a).unique⟩
  obtain rfl : b' = b := heq
  rcases update_eq_some_iff.mp hold' with ⟨-, hx⟩ | ⟨hne, hx⟩
  · cases hx
  · exact hne (h.unique a' a b' hx ha)

/-- An owner that forgets its resource leaves it to no one. -/
lemma not_noneLost_of_lost (h : SingleOwner hold live) (ha : hold a = some b) {x : Option β}
    {live' : Set β} (hx : x ≠ some b) (hb : b ∈ live') :
    ¬ NoneLost (Function.update hold a x) live' := by
  intro hacc
  obtain ⟨a', hold'⟩ := hacc b hb
  rcases update_eq_some_iff.mp hold' with ⟨-, hx'⟩ | ⟨hne, hx'⟩
  · exact hx hx'
  · exact hne (h.unique a' a b hx' ha)

end SingleOwner

/-- Nothing is lost when an owner that holds nothing takes a resource. -/
lemma noneLost_take_iff (h : SingleOwner hold live) (hb : b ∉ live) :
    NoneLost (Function.update hold a (some b)) (insert b live) ↔
      NoneLost hold live ∧ hold a = none := by
  cases ha : hold a with
  | some b₀ =>
      have hlive := h.live a b₀ ha
      refine iff_of_false (h.not_noneLost_of_lost ha (fun heq => ?_)
        (Set.mem_insert_of_mem b hlive)) fun h => Option.some_ne_none b₀ h.2
      cases heq
      exact hb hlive
  | none =>
      rw [eq_self_iff_true, and_true]
      constructor
      · intro hacc b' hb'
        obtain ⟨a', hold'⟩ := hacc b' (Set.mem_insert_of_mem b hb')
        rcases update_eq_some_iff.mp hold' with ⟨-, hx⟩ | ⟨-, hx⟩
        · cases hx
          exact absurd hb' hb
        · exact ⟨a', hx⟩
      · intro hacc b' hb'
        rcases Set.mem_insert_iff.mp hb' with rfl | hold
        · exact ⟨a, Function.update_self ..⟩
        · obtain ⟨a', hold'⟩ := hacc b' hold
          refine ⟨a', update_eq_some_iff.mpr (.inr ⟨fun heq => ?_, hold'⟩)⟩
          rw [heq, ha] at hold'
          cases hold'

/-- Nothing is lost when an owner that holds nothing forgets it. -/
lemma noneLost_drop_iff (h : SingleOwner hold live) :
    NoneLost (Function.update hold a none) live ↔ NoneLost hold live ∧ hold a = none := by
  cases ha : hold a with
  | some b₀ =>
      exact iff_of_false (h.not_noneLost_of_lost ha (Option.some_ne_none b₀).symm
        (h.live a b₀ ha)) fun h => Option.some_ne_none b₀ h.2
  | none => rw [← ha, Function.update_eq_self, ha, eq_self_iff_true, and_true]

/-- Nothing is lost when an owner closes what it holds. -/
lemma noneLost_close_iff (ha : hold a = some b) :
    NoneLost (Function.update hold a none) (live \ {b}) ↔ NoneLost hold live := by
  constructor
  · intro hacc b' hb'
    by_cases heq : b' = b
    · exact ⟨a, heq ▸ ha⟩
    · obtain ⟨a', hold'⟩ := hacc b' ⟨hb', heq⟩
      rcases update_eq_some_iff.mp hold' with ⟨-, hx⟩ | ⟨-, hx⟩
      · cases hx
      · exact ⟨a', hx⟩
  · rintro hacc b' ⟨hb', hne⟩
    obtain ⟨a', hold'⟩ := hacc b' hb'
    refine ⟨a', update_eq_some_iff.mpr (.inr ⟨fun heq => hne ?_, hold'⟩)⟩
    rw [heq, ha] at hold'
    exact (Option.some.inj hold').symm

end Ownership
