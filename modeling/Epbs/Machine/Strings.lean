/-
Searches in a block of bytes for a string.

* `strstr`: the first place of a needle before the NUL, `none` if the search leaves the block;
* `strstr_found`: what is found is in the block, and there is no NUL before it;
* `strstr_append`: a search that ends in a block ends in every longer one in the same way;
* `strstr_append_stray`: a search that leaves a block is not ended by bytes which are neither
  in the needle nor NUL, and `strstr_of_append`: one that ends there ended in the block;
* `strstr_append_needle`, `strstr_append_nul`: a search over text without the needle, up to a
  needle that does not begin inside itself, and up to a NUL.
-/
import Mathlib.Tactic
import Mathlib.Data.List.TakeWhile

namespace Strings

/-- The answer of a search: `NULL`, or what is before the needle and from the needle on. -/
abbrev Found := Option (List UInt8 × List UInt8)

/-- **`strstr`** from the start of a block on; not defined if it finds neither the needle nor
a NUL in the block. -/
def strstr (needle : List UInt8) : List UInt8 → Option Found
  | [] => none
  | c :: cs =>
      if needle <+: c :: cs then some (some ([], c :: cs))
      else if c = 0 then some none
      else (strstr needle cs).map fun found => found.map fun p => (c :: p.1, p.2)

/-- More bytes behind what was found. -/
def Found.extend (found : Found) (more : List UInt8) : Found :=
  found.map fun p => (p.1, p.2 ++ more)

section Strstr

variable {needle text : List UInt8}

/-- **What is found.** -/
lemma strstr_found {before found : List UInt8}
    (h : strstr needle text = some (some (before, found))) :
    text = before ++ found ∧ needle <+: found ∧ (0 : UInt8) ∉ before := by
  induction text generalizing before with
  | nil => cases h
  | cons c cs ih =>
      rw [strstr] at h
      split_ifs at h with hbegins hzero
      · cases h
        exact ⟨rfl, hbegins, List.not_mem_nil⟩
      · cases h
      · obtain ⟨answer, hanswer, heq⟩ := Option.map_eq_some_iff.mp h
        obtain ⟨p, hp, hpair⟩ := Option.map_eq_some_iff.mp heq
        obtain ⟨rfl, rfl⟩ := Prod.mk.inj hpair
        obtain ⟨htext, hfound, hbefore⟩ := ih (hanswer.trans (congrArg some hp))
        refine ⟨by rw [htext, List.cons_append], hfound, ?_⟩
        rintro (- | ⟨-, hmem⟩)
        · exact hzero rfl
        · exact hbefore hmem

/-- A needle is at the same places of a longer text as far as the text goes. -/
lemma prefix_append_iff {more : List UInt8} (h : ∀ b ∈ more.head?, b ∉ needle) :
    needle <+: text ++ more ↔ needle <+: text := by
  constructor
  · rintro hbegins
    rcases le_or_gt needle.length text.length with hle | hlt
    · exact List.prefix_of_prefix_length_le hbegins (List.prefix_append text more) hle
    · -- the needle goes on behind the text, with a byte it does not have
      obtain ⟨rest, hrest⟩ := List.prefix_of_prefix_length_le (List.prefix_append text more)
        hbegins hlt.le
      have hne : rest ≠ [] := by
        rintro rfl
        rw [List.append_nil] at hrest
        rw [← hrest] at hlt
        exact lt_irrefl _ hlt
      obtain ⟨b, bs, rfl⟩ := List.exists_cons_of_ne_nil hne
      rw [← hrest, List.prefix_append_right_inj] at hbegins
      obtain ⟨after, rfl⟩ := hbegins
      refine absurd ?_ (h b rfl)
      rw [← hrest]
      exact List.mem_append_right _ List.mem_cons_self
  · exact fun hbegins => hbegins.trans (List.prefix_append text more)

/-- There is no room for the needle, and nothing ends the search. -/
lemma strstr_eq_none (hlen : text.length < needle.length) (hzero : (0 : UInt8) ∉ text) :
    strstr needle text = none := by
  induction text with
  | nil => rfl
  | cons c cs ih =>
      have hnot : ¬needle <+: c :: cs := fun hbegins => hbegins.length_le.not_gt hlen
      have hc : c ≠ 0 := fun hc => hzero (hc ▸ List.mem_cons_self)
      rw [strstr, if_neg hnot, if_neg hc, ih (by rw [List.length_cons] at hlen; omega)
        fun hmem => hzero (List.mem_cons_of_mem c hmem), Option.map_none]

/-- **A search that ends in a block** ends in every longer one in the same way. -/
lemma strstr_append (hneedle : (0 : UInt8) ∉ needle) {found : Found}
    (h : strstr needle text = some found) (more : List UInt8) :
    strstr needle (text ++ more) = some (found.extend more) := by
  induction text generalizing found with
  | nil => cases h
  | cons c cs ih =>
      rw [List.cons_append, strstr, ← List.cons_append]
      by_cases hbegins : needle <+: c :: cs
      · rw [strstr, if_pos hbegins] at h
        cases h
        rw [if_pos (hbegins.trans (List.prefix_append _ more))]
        rfl
      · have hnot : ¬needle <+: (c :: cs) ++ more := by
          intro hlong
          -- the needle would begin with all of the block, and nothing would end the search
          have hlt : (c :: cs).length < needle.length := by
            by_contra hle
            exact hbegins (List.prefix_of_prefix_length_le hlong (List.prefix_append _ more)
              (not_lt.mp hle))
          have hinit := List.prefix_of_prefix_length_le (List.prefix_append _ more) hlong hlt.le
          rw [strstr_eq_none hlt fun hzero => hneedle (hinit.subset hzero)] at h
          cases h
        rw [if_neg hnot]
        rw [strstr, if_neg hbegins] at h
        split_ifs at h ⊢ with hzero
        · cases h
          rfl
        · obtain ⟨answer, hanswer, rfl⟩ := Option.map_eq_some_iff.mp h
          rw [ih hanswer, Option.map_some]
          cases answer <;> rfl

/-- **A search that leaves a block** leaves every longer one with bytes behind it that end
nothing. -/
lemma strstr_append_stray (hneedle : needle ≠ []) {more : List UInt8}
    (hmore : ∀ b ∈ more, b ∉ needle ∧ b ≠ 0) (h : strstr needle text = none) :
    strstr needle (text ++ more) = none := by
  induction text with
  | nil =>
      rw [List.nil_append]
      clear h
      induction more with
      | nil => rfl
      | cons b bs ih =>
          obtain ⟨hb, hbs⟩ := List.forall_mem_cons.mp hmore
          have hnot : ¬needle <+: b :: bs := by
            obtain ⟨n, ns, rfl⟩ := List.exists_cons_of_ne_nil hneedle
            intro hbegins
            rw [List.cons_prefix_cons] at hbegins
            exact hb.1 (hbegins.1 ▸ List.mem_cons_self)
          rw [strstr, if_neg hnot, if_neg hb.2, ih hbs, Option.map_none]
  | cons c cs ih =>
      rw [strstr] at h
      split_ifs at h with hbegins hzero
      have hnot : ¬needle <+: (c :: cs) ++ more := by
        rwa [prefix_append_iff fun b hb => (hmore b (List.mem_of_mem_head? hb)).1]
      rw [List.cons_append, strstr, ← List.cons_append, if_neg hnot, if_neg hzero,
        ih (Option.map_eq_none_iff.mp h), Option.map_none]

/-- A search that ends with such bytes behind the block ends in the block. -/
lemma strstr_of_append (hneedle : needle ≠ []) (hnul : (0 : UInt8) ∉ needle) {more : List UInt8}
    (hmore : ∀ b ∈ more, b ∉ needle ∧ b ≠ 0) {found : Found}
    (h : strstr needle (text ++ more) = some found) :
    ∃ inside, strstr needle text = some inside ∧ found = inside.extend more := by
  cases htext : strstr needle text with
  | none =>
      rw [strstr_append_stray hneedle hmore htext] at h
      cases h
  | some inside =>
      rw [strstr_append hnul htext] at h
      exact ⟨inside, rfl, (Option.some.inj h).symm⟩

/-- A needle with its first byte nowhere else does not begin shortly before another one. -/
lemma not_prefix_append_needle {n : UInt8} {ns : List UInt8} (hn : n ∉ ns) (htext : text ≠ [])
    (hnot : ¬n :: ns <:+: text) (more : List UInt8) : ¬n :: ns <+: text ++ (n :: ns ++ more) := by
  intro hbegins
  rcases le_or_gt (n :: ns).length text.length with hle | hlt
  · exact hnot (List.prefix_of_prefix_length_le hbegins (List.prefix_append text _) hle).isInfix
  · -- the rest of the needle would begin with its first byte
    obtain ⟨rest, hrest⟩ := List.prefix_of_prefix_length_le (List.prefix_append text _)
      hbegins hlt.le
    obtain ⟨c, cs, rfl⟩ := List.exists_cons_of_ne_nil htext
    rw [List.cons_append, List.cons.injEq] at hrest
    obtain ⟨rfl, rfl⟩ := hrest
    rw [List.length_cons, List.length_cons, List.length_append] at hlt
    obtain ⟨b, bs, rfl⟩ := List.exists_cons_of_ne_nil (by
      rintro rfl
      rw [List.length_nil] at hlt
      omega : rest ≠ [])
    rw [← List.cons_append, List.prefix_append_right_inj, List.cons_append, List.cons_append,
      List.cons_prefix_cons] at hbegins
    exact hn (hbegins.1 ▸ List.mem_append_right cs List.mem_cons_self)

/-- **A search ends at the first needle.** -/
lemma strstr_append_needle {n : UInt8} {ns : List UInt8} (hn : n ∉ ns) (hzero : (0 : UInt8) ∉ text)
    (hnot : ¬n :: ns <:+: text) (more : List UInt8) :
    strstr (n :: ns) (text ++ (n :: ns ++ more)) = some (some (text, n :: ns ++ more)) := by
  induction text with
  | nil =>
      rw [List.nil_append, List.cons_append, strstr, if_pos]
      rw [← List.cons_append]
      exact List.prefix_append _ more
  | cons c cs ih =>
      have hbegins := not_prefix_append_needle hn (List.cons_ne_nil c cs) hnot more
      have hc : c ≠ 0 := fun hc => hzero (hc ▸ List.mem_cons_self)
      rw [List.cons_append] at hbegins ⊢
      rw [strstr, if_neg hbegins, if_neg hc, ih (fun hmem => hzero (List.mem_cons_of_mem c hmem))
        fun hin => hnot (hin.trans (List.suffix_cons c cs).isInfix)]
      rfl

/-- **A search ends at a NUL** behind text without the needle. -/
lemma strstr_append_nul (hneedle : (0 : UInt8) ∉ needle) (hzero : (0 : UInt8) ∉ text)
    (hnot : ¬needle <:+: text) (more : List UInt8) :
    strstr needle (text ++ 0 :: more) = some none := by
  have hnul : ∀ b ∈ (0 :: more).head?, b ∉ needle := by
    rintro b ⟨rfl⟩
    exact hneedle
  induction text with
  | nil =>
      have hbegins : ¬needle <+: [] ++ 0 :: more := fun hbegins =>
        hnot ((prefix_append_iff hnul).mp hbegins).isInfix
      rw [List.nil_append] at hbegins ⊢
      rw [strstr, if_neg hbegins, if_pos rfl]
  | cons c cs ih =>
      have hbegins : ¬needle <+: (c :: cs) ++ 0 :: more := fun hbegins =>
        hnot ((prefix_append_iff hnul).mp hbegins).isInfix
      have hc : c ≠ 0 := fun hc => hzero (hc ▸ List.mem_cons_self)
      rw [List.cons_append] at hbegins ⊢
      rw [strstr, if_neg hbegins, if_neg hc, ih (fun hmem => hzero (List.mem_cons_of_mem c hmem))
        fun hin => hnot (hin.trans (List.suffix_cons c cs).isInfix)]
      rfl

end Strstr

end Strings
