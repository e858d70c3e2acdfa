/-
Bounded first-in first-out queues, and the ring of cells that stores one:

* `Fifo`: a queue of capacity `cap` with the history of what it accepted and
  gave out; the bound and the conservation law `accepted = popped ++ items` are
  fields, so no other queue can be built;
* `Ring.contents`: the cells from the tail up to the head of a ring of `N`
  cells, two indices modulo `N` that are equal exactly when it is empty;
* `Ring.contents_push`, `Ring.contents_pop`: writing at the head appends,
  moving the tail drops the front;
* `Ring.contents_eq_nil_iff`, `Ring.full_iff`: the two index tests decide
  emptiness and fullness, one cell always staying free.
-/
import Epbs.Machine.Guarded
import Mathlib.Tactic

/-! ### Queues that carry their conservation law -/

/-- A queue of capacity `cap`, with everything it accepted and everything it
gave out, oldest first. -/
structure Fifo (α : Type*) (cap : ℕ) where
  items : List α
  accepted : List α
  popped : List α
  bounded : items.length ≤ cap
  conserved : accepted = popped ++ items

namespace Fifo

variable {α : Type*} {cap : ℕ}

/-- The empty queue, before anything happened. -/
def empty : Fifo α cap := ⟨[], [], [], Nat.zero_le _, rfl⟩

/-- A push is refused by a full queue. -/
def push (x : α) (q : Fifo α cap) : Fifo α cap :=
  if h : q.items.length < cap then
    { items := q.items ++ [x]
      accepted := q.accepted ++ [x]
      popped := q.popped
      bounded := by rw [List.length_append]; exact h
      conserved := by rw [q.conserved, List.append_assoc] }
  else q

/-- A pop hands out the front; on an empty queue nothing happens. -/
def pop (q : Fifo α cap) : Fifo α cap :=
  match h : q.items with
  | [] => q
  | x :: xs =>
    { items := xs
      accepted := q.accepted
      popped := q.popped ++ [x]
      bounded := by
        have := q.bounded
        rw [h, List.length_cons] at this
        omega
      conserved := by rw [q.conserved, h, List.append_assoc]; rfl }

lemma push_of_lt {q : Fifo α cap} (x : α) (h : q.items.length < cap) :
    (q.push x).items = q.items ++ [x] ∧ (q.push x).accepted = q.accepted ++ [x] ∧
      (q.push x).popped = q.popped := by
  rw [push, dif_pos h]
  exact ⟨rfl, rfl, rfl⟩

lemma pop_of_nil {q : Fifo α cap} (h : q.items = []) : q.pop = q := by
  rw [pop]
  split
  · rfl
  · rename_i heq
    rw [h] at heq
    cases heq

lemma pop_of_cons {q : Fifo α cap} {x : α} {xs : List α} (h : q.items = x :: xs) :
    q.pop.items = xs ∧ q.pop.accepted = q.accepted ∧ q.pop.popped = q.popped ++ [x] := by
  rw [pop]
  split
  · rename_i heq
    rw [h] at heq
    cases heq
  · rename_i heq
    rw [h] at heq
    obtain ⟨rfl, rfl⟩ := List.cons.inj heq
    exact ⟨rfl, rfl, rfl⟩

end Fifo

/-! ### Rings of cells -/

namespace Ring

variable {α : Type*} {N : ℕ} {cells : ℤ → α} {tail head : ℤ}

/-- The cells of a ring of `N` from its tail up to its head. -/
def contents (N : ℕ) (cells : ℤ → α) (tail head : ℤ) : List α :=
  (List.range ((head - tail) % N).toNat).map fun i : ℕ => cells ((tail + (i : ℤ)) % N)

@[simp] lemma length_contents :
    (contents N cells tail head).length = ((head - tail) % N).toNat := by
  simp [contents]

lemma length_contents_lt (hN : 0 < N) : (contents N cells tail head).length < N := by
  have h := Int.emod_lt_of_pos (head - tail) (Int.natCast_pos.mpr hN)
  rw [length_contents]
  omega

/-- An index is the tail moved by the distance to it. -/
lemma add_dist_emod (tail i : ℤ) : (tail + (i - tail) % N) % N = i % N := by
  rw [Int.add_emod_emod, add_sub_cancel]

/-- The distance to the head, between `0` and `N - 1`. -/
lemma dist_bounds (hN : 0 < N) (tail head : ℤ) :
    0 ≤ (head - tail) % N ∧ (head - tail) % N < N :=
  ⟨Int.emod_nonneg _ (Int.natCast_pos.mpr hN).ne',
    Int.emod_lt_of_pos _ (Int.natCast_pos.mpr hN)⟩

/-- The distance to the next cell is the distance plus one, as long as it stays
below the size. -/
lemma dist_succ (tail head : ℤ) :
    ((head + 1) % N - tail) % N = ((head - tail) % N + 1) % N := by
  rw [Int.emod_sub_emod, Int.emod_add_emod]
  congr 1
  ring

/-- **Fullness by the indices**: the cell after the head is the tail exactly
when one cell is left. -/
lemma full_iff (cells : ℤ → α) (hN : 0 < N) (ht : 0 ≤ tail ∧ tail < N) :
    (head + 1) % N = tail ↔ (contents N cells tail head).length + 1 = N := by
  obtain ⟨h0, h1⟩ := dist_bounds hN tail head
  have hd : (head + 1) % N = tail ↔ ((head - tail) % N + 1) % N = 0 := by
    rw [← dist_succ, Int.emod_sub_emod, ← Int.emod_eq_emod_iff_emod_sub_eq_zero,
      Int.emod_eq_of_lt ht.1 ht.2]
  rw [hd, length_contents]
  constructor
  · intro h
    by_contra hne
    rw [Int.emod_eq_of_lt (by omega) (by omega)] at h
    omega
  · intro h
    rw [show (head - tail) % N + 1 = N by omega, Int.emod_self]

/-- **Emptiness by the indices.** -/
lemma contents_eq_nil_iff (cells : ℤ → α) (hN : 0 < N) (ht : 0 ≤ tail ∧ tail < N)
    (hh : 0 ≤ head ∧ head < N) : contents N cells tail head = [] ↔ head = tail := by
  obtain ⟨h0, h1⟩ := dist_bounds hN tail head
  rw [← List.length_eq_zero_iff, length_contents]
  constructor
  · intro h
    have hz : (head - tail) % N = 0 := by omega
    have := add_dist_emod (N := N) tail head
    rw [hz, add_zero, Int.emod_eq_of_lt ht.1 ht.2, Int.emod_eq_of_lt hh.1 hh.2] at this
    exact this.symm
  · rintro rfl
    simp

/-- **Writing at the head appends**, while the ring is not full. -/
lemma contents_push (hN : 0 < N) (ht : 0 ≤ tail ∧ tail < N) (hh : 0 ≤ head ∧ head < N)
    (room : (head + 1) % N ≠ tail) (x : α) :
    contents N (Function.update cells head x) tail ((head + 1) % N)
      = contents N cells tail head ++ [x] := by
  obtain ⟨h0, h1⟩ := dist_bounds hN tail head
  have hlt : (head - tail) % N + 1 < N := by
    have := (full_iff cells hN ht).not.mp room
    rw [length_contents] at this
    omega
  have hlen : (((head + 1) % N - tail) % N).toNat = ((head - tail) % N).toNat + 1 := by
    rw [dist_succ, Int.emod_eq_of_lt (by omega) hlt]
    omega
  rw [contents, hlen, List.range_succ, List.map_append, List.map_singleton, contents]
  congr 1
  · refine List.map_congr_left fun i hi => ?_
    rw [Function.update_of_ne]
    -- the cells before the head are other cells
    intro heq
    have hi' : (i : ℤ) < (head - tail) % N := by
      have := List.mem_range.mp hi
      omega
    have hd : ((tail + i) % N - tail) % N = i := by
      rw [Int.emod_sub_emod, add_sub_cancel_left, Int.emod_eq_of_lt (by omega) (by omega)]
    rw [heq] at hd
    omega
  · have hcell : (tail + (((head - tail) % N).toNat : ℤ)) % N = head := by
      rw [Int.toNat_of_nonneg h0, add_dist_emod, Int.emod_eq_of_lt hh.1 hh.2]
    rw [hcell, Function.update_self]

/-- **Moving the tail drops the front** of a ring that is not empty. -/
lemma contents_pop (hN : 0 < N) (ht : 0 ≤ tail ∧ tail < N) (hh : 0 ≤ head ∧ head < N)
    (hne : head ≠ tail) :
    contents N cells tail head
      = cells tail :: contents N cells ((tail + 1) % N) head := by
  obtain ⟨h0, h1⟩ := dist_bounds hN tail head
  have hpos : 0 < (head - tail) % N := by
    have := (contents_eq_nil_iff cells hN ht hh).not.mpr hne
    rw [← List.length_eq_zero_iff, length_contents] at this
    omega
  have hdist : (head - (tail + 1) % N) % N = (head - tail) % N - 1 := by
    have hmod : (head - (tail + 1) % N) % N = ((head - tail) % N - 1) % N := by
      rw [Int.sub_emod_emod, Int.emod_sub_emod]
      congr 1
      ring
    rw [hmod, Int.emod_eq_of_lt (by omega) (by omega)]
  obtain ⟨m, hm⟩ : ∃ m : ℕ, (head - tail) % N = m + 1 := ⟨((head - tail) % N).toNat - 1, by omega⟩
  have hfront : (((head - tail) % N).toNat) = m + 1 := by omega
  have hrest : ((head - (tail + 1) % N) % N).toNat = m := by omega
  rw [contents, contents, hfront, hrest, List.range_succ_eq_map, List.map_cons, List.map_map]
  congr 1
  · rw [Nat.cast_zero, add_zero, Int.emod_eq_of_lt ht.1 ht.2]
  · refine List.map_congr_left fun i _ => ?_
    rw [Function.comp_apply, Int.emod_add_emod, Nat.succ_eq_add_one, Nat.cast_add, Nat.cast_one]
    congr 2
    ring

end Ring
