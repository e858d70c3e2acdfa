/-
Strings of bytes as `std::string` has them, with positions kept in an `int`.

* `asInt`: a position in an `int`; `asInt_of_lt`, `asInt_bounds`;
* `find`: `find_append` and `find_of_not_mem`;
* `substr`, `substrLen`: `none` if the position is behind the end; `substr_append`,
  `substrLen_append`;
* `checked`: signed arithmetic, not defined where it overflows;
* `atoi`: the number a string begins with; `atoi_decimal`: it reads what `%d` writes.
-/
import Epbs.Machine.Printf

namespace Text

/-! ### Positions -/

/-- A `size_t` kept in an `int`. -/
def asInt (n : ℕ) : ℤ := ((n : ℤ) + 2147483648) % 4294967296 - 2147483648

/-- A position is kept if it is an `int`. -/
lemma asInt_of_lt {n : ℕ} (h : n < 2147483648) : asInt n = n := by
  rw [asInt]
  omega

lemma asInt_bounds (n : ℕ) : -2147483648 ≤ asInt n ∧ asInt n < 2147483648 := by
  rw [asInt]
  omega

/-- The result of signed arithmetic, not defined where it overflows. -/
def checked (n : ℤ) : Option ℤ :=
  if -2147483648 ≤ n ∧ n < 2147483648 then some n else none

lemma checked_eq_some {n : ℤ} (hlow : -2147483648 ≤ n) (hhigh : n < 2147483648) :
    checked n = some n := if_pos ⟨hlow, hhigh⟩

section Positions

variable {α : Type*} {s xs ys : List α} {c : α} {pos : ℤ}

/-- **`substr`** to the end; a position behind the end is an exception. -/
def substr (s : List α) (pos : ℤ) : Option (List α) :=
  if 0 ≤ pos ∧ pos ≤ s.length then some (s.drop pos.toNat) else none

/-- **`substr`** of a length, which is larger than any string if it is negative. -/
def substrLen (s : List α) (pos n : ℤ) : Option (List α) :=
  (substr s pos).map fun rest => if n < 0 then rest else rest.take n.toNat

lemma substr_of_neg (h : pos < 0) : substr s pos = none :=
  if_neg fun hpos => absurd hpos.1 (not_le.mpr h)

lemma substrLen_zero (s : List α) (n : ℤ) :
    substrLen s 0 n = some (if n < 0 then s else s.take n.toNat) := by
  rw [substrLen, substr, if_pos ⟨le_rfl, Int.natCast_nonneg _⟩, Int.toNat_zero, List.drop_zero,
    Option.map_some]

lemma substr_append (xs ys : List α) : substr (xs ++ ys) xs.length = some ys := by
  rw [substr, if_pos ⟨by omega, by rw [List.length_append]; omega⟩, Int.toNat_natCast,
    List.drop_left]

lemma substrLen_append (xs ys zs : List α) :
    substrLen (xs ++ (ys ++ zs)) xs.length ys.length = some ys := by
  rw [substrLen, substr_append, Option.map_some, if_neg (by omega), Int.toNat_natCast,
    List.take_left]

variable [DecidableEq α]

/-- **`find`** from a position on, kept in an `int`: -1 if there is no such member. -/
def find (s : List α) (c : α) (pos : ℤ) : ℤ :=
  if pos < 0 then -1
  else ((s.drop pos.toNat).findIdx? (· = c)).elim (-1) fun i => asInt (pos.toNat + i)

lemma find_of_neg (h : pos < 0) : find s c pos = -1 := if_pos h

lemma findIdx?_of_not_mem (h : c ∉ s) : s.findIdx? (· = c) = none := by
  refine List.findIdx?_eq_none_iff.mpr fun x hx => decide_eq_false_iff_not.mpr ?_
  rintro rfl
  exact h hx

/-- Nothing is found. -/
lemma find_of_not_mem (h : c ∉ s.drop pos.toNat) : find s c pos = -1 := by
  rw [find, findIdx?_of_not_mem h, Option.elim_none, ite_self]

/-- **The first one is found.** -/
lemma find_append (hpos : 0 ≤ pos) (hle : pos ≤ xs.length) (h : c ∉ xs.drop pos.toNat) :
    find (xs ++ c :: ys) c pos = asInt xs.length := by
  rw [find, if_neg (not_lt.mpr hpos), List.drop_append_of_le_length (by omega),
    List.findIdx?_append, findIdx?_of_not_mem h, Option.none_or, List.findIdx?_cons,
    if_pos (decide_eq_true rfl), Option.map_some, Option.elim_some, zero_add, List.length_drop]
  congr 1
  omega

end Positions

/-! ### Numbers -/

/-- `isspace` in the C locale. -/
def isSpace (b : UInt8) : Bool := b = 32 ∨ 9 ≤ b ∧ b ≤ 13

/-- The digits that a string begins with. -/
def leadingDigits : List UInt8 → List ℕ
  | [] => []
  | b :: bs =>
      match Printf.digitValue b with
      | some d => d :: leadingDigits bs
      | none => []

/-- Their value. -/
def leadingValue (s : List UInt8) : ℕ := Nat.ofDigits 10 (leadingDigits s).reverse

/-- The number behind a sign. -/
def signedValue (s : List UInt8) : ℤ :=
  if s.head? = some (Printf.ascii '-') then -leadingValue s.tail
  else if s.head? = some (Printf.ascii '+') then leadingValue s.tail
  else leadingValue s

/-- `strtol` in base 10: a number that is not a `long` is replaced by the nearest one. -/
def strtol (s : List UInt8) : ℤ :=
  max (-9223372036854775808) (min 9223372036854775807 (signedValue (s.dropWhile isSpace)))

/-- **`atoi`**: the `long` as an `int`. -/
def atoi (s : List UInt8) : ℤ := (strtol s + 2147483648) % 4294967296 - 2147483648

/-- What `%d` writes for a number. -/
def decimal (n : ℕ) : List UInt8 := Printf.digits 10 false 1 n

/-- A digit, as it is written and as it is read. -/
lemma digit_spec {d : ℕ} (hd : d < 10) :
    Printf.digitValue (Printf.digit false d) = some d ∧ isSpace (Printf.digit false d) = false ∧
      Printf.digit false d ≠ Printf.ascii '-' ∧ Printf.digit false d ≠ Printf.ascii '+' ∧
      48 ≤ Printf.digit false d ∧ Printf.digit false d ≤ 57 := by
  have hall : ∀ d < 10,
      Printf.digitValue (Printf.digit false d) = some d ∧ isSpace (Printf.digit false d) = false ∧
        Printf.digit false d ≠ Printf.ascii '-' ∧ Printf.digit false d ≠ Printf.ascii '+' ∧
        48 ≤ Printf.digit false d ∧ Printf.digit false d ≤ 57 := by decide
  exact hall d hd

/-- The digits are read. -/
lemma leadingDigits_map {ds : List ℕ} (h : ∀ d ∈ ds, d < 10) :
    leadingDigits (ds.map (Printf.digit false)) = ds := by
  induction ds with
  | nil => rfl
  | cons d ds ih =>
      rw [List.forall_mem_cons] at h
      simp only [List.map_cons, leadingDigits, (digit_spec h.1).1]
      rw [ih h.2]

/-- **What is written** are the digits of the number, or a zero. -/
lemma decimal_spec (n : ℕ) : ∃ ds : List ℕ, decimal n = ds.map (Printf.digit false) ∧ ds ≠ [] ∧
    (∀ d ∈ ds, d < 10) ∧ Nat.ofDigits 10 ds.reverse = n := by
  rcases Nat.eq_zero_or_pos n with rfl | hpos
  · exact ⟨[0], rfl, List.cons_ne_nil 0 [], by decide, rfl⟩
  · have hne : Nat.digits 10 n ≠ [] := Nat.digits_ne_nil_iff_ne_zero.mpr hpos.ne'
    have hlen := List.length_pos_iff.mpr hne
    refine ⟨(Nat.digits 10 n).reverse, ?_, List.reverse_ne_nil_iff.mpr hne, ?_, ?_⟩
    · rw [decimal, Printf.digits, List.length_map, List.length_reverse, Nat.sub_eq_zero_of_le hlen,
        List.replicate_zero, List.nil_append]
    · exact fun d hd => Nat.digits_lt_base (by norm_num) (List.mem_reverse.mp hd)
    · rw [List.reverse_reverse, Nat.ofDigits_digits]

/-- A byte of a number is a digit. -/
lemma mem_decimal {n : ℕ} {b : UInt8} (h : b ∈ decimal n) :
    isSpace b = false ∧ 48 ≤ b ∧ b ≤ 57 := by
  obtain ⟨ds, hds, -, hlt, -⟩ := decimal_spec n
  rw [hds] at h
  obtain ⟨d, hd, rfl⟩ := List.mem_map.mp h
  obtain ⟨-, hspace, -, -, hrange⟩ := digit_spec (hlt d hd)
  exact ⟨hspace, hrange⟩

lemma length_decimal_le {n k : ℕ} (hn : n < 10 ^ (k + 1)) : (decimal n).length ≤ k + 1 := by
  have hlen : (Nat.digits 10 n).length ≤ k + 1 := by
    rwa [Nat.digits_length_le_iff (by norm_num)]
  rw [decimal, Printf.digits, List.length_append, List.length_replicate, List.length_map,
    List.length_reverse]
  omega

/-- **`atoi` reads what `%d` writes.** -/
lemma atoi_decimal {n : ℕ} (hn : n < 2147483648) : atoi (decimal n) = n := by
  obtain ⟨ds, hds, hne, hlt, hvalue⟩ := decimal_spec n
  obtain ⟨d, rest, rfl⟩ := List.exists_cons_of_ne_nil hne
  obtain ⟨-, hspace, hminus, hplus, -⟩ := digit_spec (hlt d List.mem_cons_self)
  have hsigned : signedValue ((decimal n).dropWhile isSpace) = n := by
    have hhead : (decimal n).head? = some (Printf.digit false d) := by rw [hds]; rfl
    have hdrop : (decimal n).dropWhile isSpace = decimal n := by
      rw [hds, List.map_cons, List.dropWhile_cons_of_neg (by rw [hspace]; exact Bool.false_ne_true)]
    rw [hdrop, signedValue, hhead, if_neg fun h => hminus (Option.some.inj h),
      if_neg fun h => hplus (Option.some.inj h), leadingValue, hds, leadingDigits_map hlt, hvalue]
  rw [atoi, strtol, hsigned]
  omega

end Text
