/-
`printf` formats with one `int` argument.

* `Spec`, `Spec.read`: a conversion specification, read byte by byte: flags, width,
  precision and length modifier;
* `Spec.convert`: what a specification writes for the argument, as the C standard has
  it; `none` where the standard leaves the behaviour undefined;
* `expand`: what a format writes, `none` if it asks for an argument that is not there
  or for one of another type;
* `expand_of_plain`: a format without `%` is written as it stands;
* `count_expand_le`: every `%` that is written takes two of the format, or the argument.
-/
import Mathlib.Tactic

namespace Printf

/-- The code of a character. -/
def ascii (c : Char) : UInt8 := c.toNat.toUInt8

/-- The byte `'%'`. -/
def percent : UInt8 := 37

/-! ### Conversion specifications -/

/-- What was read of a conversion specification: the flags, the width (0 if there is
none), the precision, and the number of bits of the type that the length modifier
names. -/
structure Spec where
  minus : Bool := false
  plus : Bool := false
  space : Bool := false
  alt : Bool := false
  zero : Bool := false
  width : ℕ := 0
  precision : Option ℕ := none
  bits : ℕ := 32
  deriving DecidableEq

/-- The value of a decimal digit. -/
def digitValue (c : UInt8) : Option ℕ :=
  if ascii '0' ≤ c ∧ c ≤ ascii '9' then some (c.toNat - (ascii '0').toNat) else none

/-- A flag. -/
def Spec.flag (v : Spec) (c : UInt8) : Option Spec :=
  if c = ascii '-' then some { v with minus := true }
  else if c = ascii '+' then some { v with plus := true }
  else if c = ascii ' ' then some { v with space := true }
  else if c = ascii '#' then some { v with alt := true }
  else if c = ascii '0' then some { v with zero := true }
  else none

/-- The specification after one more byte, `none` if the byte does not belong to it. -/
def Spec.read (v : Spec) (c : UInt8) : Option Spec :=
  if v.bits = 32 then
    match v.precision with
    | some p =>
        if c = ascii 'h' then some { v with bits := 16 }
        else (digitValue c).map fun d => { v with precision := some (10 * p + d) }
    | none =>
        if c = ascii 'h' then some { v with bits := 16 }
        else if c = ascii '.' then some { v with precision := some 0 }
        else if v.width = 0 then
          (v.flag c).or ((digitValue c).map fun d => { v with width := d })
        else (digitValue c).map fun d => { v with width := 10 * v.width + d }
  else if v.bits = 16 ∧ c = ascii 'h' then some { v with bits := 8 }
  else none

/-! ### What is written -/

/-- A digit of a number in a base up to 16. -/
def digit (upper : Bool) (d : ℕ) : UInt8 :=
  UInt8.ofNat (if d < 10 then 48 + d else if upper then 55 + d else 87 + d)

/-- The digits of a number, at least as many as the precision says. -/
def digits (base : ℕ) (upper : Bool) (precision n : ℕ) : List UInt8 :=
  let ds := (Nat.digits base n).reverse.map (digit upper)
  List.replicate (precision - ds.length) (ascii '0') ++ ds

/-- The field: a sign or a base, and digits, padded to the width. -/
def Spec.pad (v : Spec) (sign body : List UInt8) : List UInt8 :=
  let fill := v.width - (sign.length + body.length)
  if v.minus then sign ++ body ++ List.replicate fill (ascii ' ')
  else if v.zero && v.precision.isNone then sign ++ List.replicate fill (ascii '0') ++ body
  else List.replicate fill (ascii ' ') ++ sign ++ body

/-- The sign of a number in a signed conversion. -/
def Spec.sign (v : Spec) (n : ℤ) : List UInt8 :=
  if n < 0 then [ascii '-']
  else if v.plus then [ascii '+']
  else if v.space then [ascii ' ']
  else []

/-- The conversion of the `int` `n` by the specification that ends in `c`. -/
def Spec.convert (v : Spec) (c : UInt8) (n : ℤ) : Option (List UInt8) :=
  let precision := v.precision.getD 1
  let signed := n.bmod (2 ^ v.bits)
  let unsigned := (n % 2 ^ v.bits).toNat
  if c = ascii 'd' ∨ c = ascii 'i' then
    if v.alt then none
    else some (v.pad (v.sign signed) (digits 10 false precision signed.natAbs))
  else if c = ascii 'u' then
    if v.alt then none else some (v.pad [] (digits 10 false precision unsigned))
  else if c = ascii 'o' then
    let ds := digits 8 false precision unsigned
    some (v.pad [] (if v.alt ∧ ds.head? ≠ some (ascii '0') then ascii '0' :: ds else ds))
  else if c = ascii 'x' ∨ c = ascii 'X' then
    some (v.pad (if v.alt ∧ unsigned ≠ 0 then [ascii '0', c] else [])
      (digits 16 (c = ascii 'X') precision unsigned))
  else if c = ascii 'c' then
    if v.alt ∨ v.zero ∨ v.precision.isSome ∨ v.bits ≠ 32 then none
    else some (v.pad [] [UInt8.ofNat (n % 256).toNat])
  else none

/-- What a format writes for the `int` it is given, from inside a specification or
outside. -/
def expand (arg : Option ℤ) : Option Spec → List UInt8 → Option (List UInt8)
  | none, [] => some []
  | some _, [] => none
  | none, c :: rest =>
      if c = percent then expand arg (some {}) rest else (expand arg none rest).map (c :: ·)
  | some v, c :: rest =>
      if c = percent then
        if v = {} then (expand arg none rest).map (percent :: ·) else none
      else
        match v.read c with
        | some v' => expand arg (some v') rest
        | none => arg.bind fun n => (v.convert c n).bind fun out =>
            (expand none none rest).map (out ++ ·)

/-- A format without `%` is written as it stands. -/
lemma expand_of_plain {fmt : List UInt8} (h : percent ∉ fmt) (arg : Option ℤ) :
    expand arg none fmt = some fmt := by
  induction fmt with
  | nil => rw [expand]
  | cons c rest ih =>
      rw [List.mem_cons, not_or] at h
      rw [expand, if_neg (Ne.symm h.1), ih h.2, Option.map_some]

/-! ### The percent signs that are written -/

/-- Padding writes no `%`. -/
lemma count_pad (v : Spec) (sign body : List UInt8) :
    (v.pad sign body).count percent = sign.count percent + body.count percent := by
  have hspace : (ascii ' ' == percent) = false := by decide
  have hzero : (ascii '0' == percent) = false := by decide
  rw [Spec.pad]
  split_ifs <;> simp [List.count_append, List.count_replicate, hspace, hzero]

/-- A digit is not `%`. -/
lemma digit_ne_percent (upper : Bool) {d : ℕ} (hd : d < 16) : digit upper d ≠ percent := by
  have hall : ∀ upper : Bool, ∀ d < 16, digit upper d ≠ percent := by decide
  exact hall upper d hd

/-- Digits are no `%`. -/
lemma count_digits {base : ℕ} (hlow : 1 < base) (hhigh : base ≤ 16) (upper : Bool)
    (precision n : ℕ) : (digits base upper precision n).count percent = 0 := by
  refine List.count_eq_zero.mpr fun hmem => ?_
  rw [digits, List.mem_append] at hmem
  rcases hmem with hfill | hdigit
  · have hzero : percent ≠ ascii '0' := by decide
    exact hzero (List.mem_replicate.mp hfill).2
  · obtain ⟨d, hd, heq⟩ := List.mem_map.mp hdigit
    have hlt := Nat.digits_lt_base hlow (List.mem_reverse.mp hd)
    exact digit_ne_percent upper (hlt.trans_le hhigh) heq

/-- A sign is no `%`. -/
lemma count_sign (v : Spec) (n : ℤ) : (v.sign n).count percent = 0 := by
  rw [Spec.sign]
  split_ifs <;> decide

/-- The prefix of a base is no `%`. -/
lemma count_base {c : UInt8} (hc : c = ascii 'x' ∨ c = ascii 'X') :
    [ascii '0', c].count percent = 0 := by
  rcases hc with rfl | rfl <;> decide

/-- The character that an argument stands for. -/
lemma count_char (n : ℤ) :
    [UInt8.ofNat (n % 256).toNat].count percent = if n % 256 = 37 then 1 else 0 := by
  have hall : ∀ k < 256, (UInt8.ofNat k == percent) = decide (k = 37) := by decide +kernel
  have hlow : 0 ≤ n % 256 := Int.emod_nonneg n (by norm_num)
  have hhigh : n % 256 < 256 := Int.emod_lt_of_pos n (by norm_num)
  rw [List.count_singleton, hall _ (by omega)]
  by_cases h37 : n % 256 = 37
  · rw [if_pos h37, h37]
    rfl
  · rw [if_neg h37, if_neg]
    rw [decide_eq_true_iff]
    omega

/-- A conversion writes a `%` only as the character that is its argument. -/
lemma count_convert_le {v : Spec} {c : UInt8} {n : ℤ} {out : List UInt8}
    (h : v.convert c n = some out) :
    out.count percent ≤ if n % 256 = 37 then 1 else 0 := by
  have hnumber : ∀ {sign body : List UInt8}, sign.count percent = 0 → body.count percent = 0 →
      (v.pad sign body).count percent ≤ if n % 256 = 37 then 1 else 0 := by
    intro sign body hsign hbody
    rw [count_pad, hsign, hbody]
    exact Nat.zero_le _
  have hoctal : (digits 8 false (v.precision.getD 1) (n % 2 ^ v.bits).toNat).count percent = 0 :=
    count_digits (by norm_num) (by norm_num) _ _ _
  simp only [Spec.convert] at h
  split_ifs at h with hd halt hu halt ho hzero hx halt hc hplain
  · cases h
    exact hnumber (count_sign v _) (count_digits (by norm_num) (by norm_num) _ _ _)
  · cases h
    exact hnumber rfl (count_digits (by norm_num) (by norm_num) _ _ _)
  · cases h
    exact hnumber rfl (by rw [List.count_cons_of_ne (by decide), hoctal])
  · cases h
    exact hnumber rfl hoctal
  · cases h
    exact hnumber (count_base hx) (count_digits (by norm_num) (by norm_num) _ _ _)
  · cases h
    exact hnumber rfl (count_digits (by norm_num) (by norm_num) _ _ _)
  · cases h
    rw [count_pad, List.count_nil, Nat.zero_add, count_char]

/-- **The percent signs that are written**: each takes two of the format, one pair may be
short of one that was read before, and an argument may be one. -/
lemma count_expand_le {arg : Option ℤ} {v : Option Spec} {fmt out : List UInt8}
    (h : expand arg v fmt = some out) :
    2 * out.count percent ≤ fmt.count percent + (if v.isSome then 1 else 0) +
      (if arg.any (· % 256 = 37) then 1 else 0) := by
  induction fmt generalizing arg v out with
  | nil =>
      cases v with
      | none =>
          cases h
          exact Nat.zero_le _
      | some v => cases h
  | cons c rest ih =>
      cases v with
      | none =>
          rw [expand] at h
          split_ifs at h with hc
          · -- a sign opens a specification: it is the one that may be short of its pair
            have := ih h
            rw [hc, List.count_cons_self]
            simpa using this
          · obtain ⟨out', hout', rfl⟩ := Option.map_eq_some_iff.mp h
            rw [List.count_cons_of_ne hc, List.count_cons_of_ne hc]
            exact ih hout'
      | some v =>
          rw [expand] at h
          split_ifs at h with hc hv
          · -- and a second sign closes it: two are read, one is written
            obtain ⟨out', hout', rfl⟩ := Option.map_eq_some_iff.mp h
            have := ih hout'
            rw [hc, List.count_cons_self, List.count_cons_self]
            simp only [Option.isSome_none, Bool.false_eq_true, if_false] at this
            simp only [Option.isSome_some, if_true]
            omega
          · rw [List.count_cons_of_ne hc]
            cases hread : v.read c with
            | some v' =>
                simp only [hread] at h
                have hrest := ih h
                simpa only [Option.isSome_some] using hrest
            | none =>
                simp only [hread] at h
                obtain ⟨n, rfl, hconvert⟩ := Option.bind_eq_some_iff.mp h
                obtain ⟨field, hfield, hout⟩ := Option.bind_eq_some_iff.mp hconvert
                obtain ⟨out', hout', rfl⟩ := Option.map_eq_some_iff.mp hout
                have hrest := ih hout'
                have hhead := count_convert_le hfield
                simp only [Option.isSome_none, Bool.false_eq_true, if_false,
                  Option.any_none] at hrest
                simp only [List.count_append, Option.isSome_some, if_true, Option.any_some,
                  decide_eq_true_eq]
                split_ifs at hhead ⊢ <;> omega

end Printf
