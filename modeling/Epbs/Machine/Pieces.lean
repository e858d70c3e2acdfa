/-
Moving a buffer piece by piece.

* `segment`, `overwrite`: bytes read from a memory and written to it; `segment_add`,
  `segment_congr`, `segment_overwrite`, `overwrite_outside`;
* `moveAll`: a loop that offers what is left until a call moves nothing;
* `moveAll_rule`: an invariant of the calls holds at the end, or a call moved nothing.
-/
import Mathlib.Tactic
import Mathlib.Data.List.GetD

namespace Pieces

/-! ### Memory -/

section Memory

variable {α : Type*} {mem mem' : ℤ → α} {start : ℤ}

/-- The `n` cells from an address on. -/
def segment (mem : ℤ → α) (start : ℤ) (n : ℕ) : List α :=
  (List.range n).map fun i : ℕ => mem (start + i)

/-- The memory with a list written from an address on. -/
def overwrite (mem : ℤ → α) (start : ℤ) (xs : List α) : ℤ → α := fun a =>
  if start ≤ a then xs.getD (a - start).toNat (mem a) else mem a

/-- Two segments, one behind the other. -/
lemma segment_add (mem : ℤ → α) (start : ℤ) (m n : ℕ) :
    segment mem start (m + n) = segment mem start m ++ segment mem (start + m) n := by
  rw [segment, List.range_add, List.map_append, List.map_map]
  congr 1
  refine List.map_congr_left fun i _ => ?_
  rw [Function.comp_apply, Nat.cast_add, add_assoc]

/-- Memories that agree on a segment. -/
lemma segment_congr {n : ℕ} (h : ∀ a, start ≤ a → a < start + n → mem a = mem' a) :
    segment mem start n = segment mem' start n := by
  refine List.map_congr_left fun i hi => h _ (by omega) ?_
  have := List.mem_range.mp hi
  omega

/-- What was written is read. -/
lemma segment_overwrite (mem : ℤ → α) (start : ℤ) (xs : List α) :
    segment (overwrite mem start xs) start xs.length = xs := by
  refine List.ext_getElem (by rw [segment, List.length_map, List.length_range]) fun i _ hi => ?_
  simp only [segment, List.getElem_map, List.getElem_range, overwrite]
  rw [if_pos (by omega), show (start + (i : ℤ) - start).toNat = i by omega,
    List.getD_eq_getElem _ _ hi]

/-- The rest of the memory is as before. -/
lemma overwrite_outside {xs : List α} {a : ℤ} (h : a < start ∨ start + xs.length ≤ a) :
    overwrite mem start xs a = mem a := by
  rw [overwrite]
  split_ifs with hle
  · rw [List.getD_eq_default]
    omega
  · rfl

end Memory

/-! ### The loop -/

section Loop

variable {σ : Type*} {call : ℤ → ℤ → σ → σ × ℤ} {len : ℤ}

/-- **The loop**: every call is given the place and the length of what is left, and says how
much it moved. -/
def moveAll (call : ℤ → ℤ → σ → σ × ℤ) (len n : ℤ) (s : σ) : σ × ℤ :=
  if n < len then
    let r := call n (len - n) s
    if r.2 ≤ 0 then (r.1, n) else moveAll call len (n + r.2) r.1
  else (s, n)
termination_by (len - n).toNat
decreasing_by
  rename_i hlt hr
  have hpos : 0 < (call n (len - n) s).2 := not_le.mp hr
  omega

/-- **The rule of the loop.** -/
lemma moveAll_rule {I Q : ℤ → σ → Prop}
    (hmoved : ∀ n s, n < len → I n s → 0 < (call n (len - n) s).2 →
      I (n + (call n (len - n) s).2) (call n (len - n) s).1)
    (hstuck : ∀ n s, n < len → I n s → (call n (len - n) s).2 ≤ 0 →
      Q n (call n (len - n) s).1)
    (hend : ∀ n s, len ≤ n → I n s → Q n s) {n : ℤ} {s : σ} (h : I n s) :
    Q (moveAll call len n s).2 (moveAll call len n s).1 := by
  induction n, s using moveAll.induct call len with
  | case1 n s hlt r hr =>
      rw [moveAll, if_pos hlt, if_pos hr]
      exact hstuck n s hlt h hr
  | case2 n s hlt r hr ih =>
      rw [moveAll, if_pos hlt, if_neg hr]
      exact ih (hmoved n s hlt h (not_le.mp hr))
  | case3 n s hge =>
      rw [moveAll, if_neg hge]
      exact hend n s (not_lt.mp hge) h

end Loop

end Pieces
