/-
The hosts file and what the start of a node makes of it: `read_host_config_file` and
`hostq_init`.

* `Block`, `HostMemory`: the blocks of 64 bytes behind `hosts` and `ips`;
* `readEntries`: the loop over the entries, `none` if a search leaves `rbuffer` or a write
  leaves a block or the arrays;
* `localIdOf`: the loop over the entries that looks for the local address;
* `readHostConfigFile`: both, on a file and what was in memory before;
* `hostqInit`: the host table made of the blocks;
* `Listed`: the entries of a text, as far as a count goes;
* `readEntries_eq`, `listed_of_readEntries`: the loop stores the entries of its text.
-/
import Epbs.Machine.Strings
import Epbs.Machine.Words
import Epbs.Server.Tables

namespace Epbs

open Words Strings

/-! ### The memory -/

/-- A block that `malloc` gave for a name. -/
abbrev Block := {bytes : Bytes // bytes.length = 64}

lemma length_write (block : Block) {name : Bytes} (h : name.length < 64) :
    (name ++ 0 :: block.1.drop (name.length + 1)).length = 64 := by
  rw [List.length_append, List.length_cons, List.length_drop, block.2]
  omega

/-- A name and its NUL are written into a block. -/
def Block.write (name : Bytes) (block : Block) : Option Block :=
  if h : name.length < 64 then
    some ⟨name ++ 0 :: block.1.drop (name.length + 1), length_write block h⟩
  else none

/-- The blocks behind the arrays `hosts` and `ips`, of `MAX_NUM_HOSTS+1` pointers each. -/
structure HostMemory where
  hosts : ℕ → Block
  ips : ℕ → Block

/-- An entry is copied to both arrays. -/
def HostMemory.store (i : ℕ) (name : Bytes) (mem : HostMemory) : Option HostMemory :=
  if i < maxNumHosts + 1 then do
    let host ← (mem.hosts i).write name
    let ip ← (mem.ips i).write name
    return ⟨Function.update mem.hosts i host, Function.update mem.ips i ip⟩
  else none

/-! ### `read_host_config_file` -/

/-- `<host>`. -/
def hostTag : Bytes := [60, 104, 111, 115, 116, 62]

/-- `</host>`. -/
def hostEndTag : Bytes := [60, 47, 104, 111, 115, 116, 62]

/-- **The loop over the entries**, from the entry `i` and the text at `p` on, with `nbytes`
bytes to go: how many entries there are, and the memory.  A round takes 13 bytes at least. -/
def readEntries : ℕ → ℕ → ℤ → Bytes → HostMemory → Option (ℕ × HostMemory)
  | 0, _, _, _, _ => none
  | fuel + 1, i, nbytes, p, mem =>
      if 13 < nbytes then
        match strstr hostTag p with
        | none => none
        | some none => some (i, mem)
        | some (some (_, p1)) =>
            match strstr hostEndTag (p1.drop 6) with
            | none => none
            | some none => some (i, mem)
            | some (some (name, p2)) =>
                (mem.store i name).bind
                  (readEntries fuel (i + 1) (nbytes - (name.length + 13)) (p2.drop 7))
      else some (i, mem)

/-- The address of the local machine as `inet_ntoa` gives it. -/
abbrev LocalIp := {ip : Bytes // 0 ∉ ip ∧ ip.length < 64}

/-- `memcmp(ip, host, strlen(ip)) == 0`. -/
def Block.matches (ip : LocalIp) (host : Block) : Prop := host.1.take ip.1.length = ip

instance (ip : LocalIp) (host : Block) : Decidable (host.matches ip) :=
  inferInstanceAs (Decidable (_ = _))

/-- **The loop that looks for the local address**: the last match counts. -/
def localIdOf (ip : LocalIp) (mem : HostMemory) (numHosts : ℕ) : ℤ :=
  (List.range numHosts).foldl
    (fun localId i => if (mem.hosts (i + 1)).matches ip then ((i + 1 : ℕ) : ℤ) else localId) (-1)

/-- What the start of a node has read: the number of the hosts, which of them it is, and the two
tables of their names. -/
structure Configuration where
  numHosts : ℕ
  localId : ℤ
  mem : HostMemory

/-- What was in memory before: in `rbuffer`, and in the blocks that `malloc` gives. -/
structure Uninitialised where
  rbuffer : {bytes : Bytes // bytes.length = 1024}
  blocks : HostMemory

/-- The text in `rbuffer` after the read of the file. -/
def Uninitialised.text (u : Uninitialised) (file : Bytes) : Bytes :=
  file.take 1024 ++ u.rbuffer.1.drop (file.take 1024).length

/-- **`read_host_config_file`**: the process exits if the local address is not listed. -/
def readHostConfigFile (ip : LocalIp) (file : Bytes) (u : Uninitialised) :
    Option (Option Configuration) := do
  let text := u.text file
  let (i, mem) ← readEntries (text.length + 1) 1 (file.take 1024).length text u.blocks
  let numHosts := i - 1
  let localId := localIdOf ip mem numHosts
  return if localId = -1 then none else some ⟨numHosts, localId, mem⟩

/-! ### `hostq_init` -/

/-- `strncpy(hostq[i].ip, ips[i], strlen(ips[i]))` into a field of zeros, without a NUL. -/
def copyIp (block : Block) : Option Bytes := do
  let str ← cstrAt block.1 0
  put (zeros 32).1 0 str

/-- **`hostq_init`**: the entries `1..MAX_NUM_HOSTS` of the host table. -/
def hostqInit (mem : HostMemory) : Option (List EpbsHostInfo) :=
  (List.range maxNumHosts).mapM fun i => do
    let ip ← copyIp (mem.ips (i + 1))
    return ⟨(i + 1 : ℕ), HostStat.online.code, ip⟩

/-! ### The entries of a text -/

/-- **The entries of a text**, as far as the count goes: text around them is not counted.
There are no more if a tag is missing before a NUL. -/
inductive Listed : ℤ → Bytes → List Bytes → Prop
  | counted {nbytes : ℤ} {text : Bytes} (h : nbytes ≤ 13) : Listed nbytes text []
  | noTag {nbytes : ℤ} {text : Bytes} (h : 13 < nbytes) (htag : strstr hostTag text = some none) :
      Listed nbytes text []
  | noEndTag {nbytes : ℤ} {text before found : Bytes} (h : 13 < nbytes)
      (htag : strstr hostTag text = some (some (before, found)))
      (hend : strstr hostEndTag (found.drop 6) = some none) : Listed nbytes text []
  | entry {nbytes : ℤ} {text before found name rest : Bytes} {names : List Bytes}
      (h : 13 < nbytes) (htag : strstr hostTag text = some (some (before, found)))
      (hend : strstr hostEndTag (found.drop 6) = some (some (name, rest)))
      (hrest : Listed (nbytes - (name.length + 13)) (rest.drop 7) names) :
      Listed nbytes text (name :: names)

/-- Entries are stored from the entry `i` on. -/
def HostMemory.storeAll : ℕ → List Bytes → HostMemory → Option HostMemory
  | _, [], mem => some mem
  | i, name :: names, mem => (mem.store i name).bind (storeAll (i + 1) names)

section Entries

variable {nbytes : ℤ} {text : Bytes} {names : List Bytes} {mem mem' : HostMemory}

/-- A round leaves a shorter text. -/
lemma length_rest {before found name rest : Bytes}
    (htag : strstr hostTag text = some (some (before, found)))
    (hend : strstr hostEndTag (found.drop 6) = some (some (name, rest))) :
    (rest.drop 7).length < text.length := by
  obtain ⟨rfl, htag, -⟩ := strstr_found htag
  obtain ⟨hfound, -, -⟩ := strstr_found hend
  have hsix : 6 ≤ found.length := htag.length_le
  have hlen := congrArg List.length hfound
  rw [List.length_drop, List.length_append] at hlen
  rw [List.length_drop, List.length_append]
  omega

/-- **The loop stores the entries of its text**, one after the other from index `i` on. The fuel is
enough as soon as it exceeds the text, since every round passes a tag. -/
lemma readEntries_eq (h : Listed nbytes text names) {fuel : ℕ} (hfuel : text.length < fuel)
    (i : ℕ) (mem : HostMemory) :
    readEntries fuel i nbytes text mem =
      (mem.storeAll i names).map fun mem' => (i + names.length, mem') := by
  induction h generalizing fuel i mem with
  | counted h =>
      obtain ⟨fuel, rfl⟩ := Nat.exists_eq_succ_of_ne_zero (by omega : fuel ≠ 0)
      rw [readEntries, if_neg (by omega)]
      rfl
  | noTag h htag =>
      obtain ⟨fuel, rfl⟩ := Nat.exists_eq_succ_of_ne_zero (by omega : fuel ≠ 0)
      simp only [readEntries, if_pos h, htag]
      rfl
  | noEndTag h htag hend =>
      obtain ⟨fuel, rfl⟩ := Nat.exists_eq_succ_of_ne_zero (by omega : fuel ≠ 0)
      simp only [readEntries, if_pos h, htag, hend]
      rfl
  | @entry nbytes text before found name rest names h htag hend hrest ih =>
      obtain ⟨fuel, rfl⟩ := Nat.exists_eq_succ_of_ne_zero (by omega : fuel ≠ 0)
      have hlen := length_rest htag hend
      simp only [readEntries, if_pos h, htag, hend, HostMemory.storeAll]
      cases hstore : mem.store i name with
      | none => rfl
      | some mem₁ =>
          rw [Option.bind_some, Option.bind_some, ih (by omega) (i + 1) mem₁, List.length_cons,
            add_right_comm, add_assoc]

/-- A loop that ends has found the entries of its text. -/
lemma listed_of_readEntries {fuel i : ℕ} {r : ℕ × HostMemory}
    (h : readEntries fuel i nbytes text mem = some r) : ∃ names, Listed nbytes text names := by
  induction fuel generalizing i nbytes text mem with
  | zero => cases h
  | succ fuel ih =>
      rw [readEntries] at h
      split_ifs at h with hcount
      · cases htag : strstr hostTag text with
        | none => simp only [htag] at h; cases h
        | some answer =>
            cases answer with
            | none => exact ⟨[], .noTag hcount htag⟩
            | some p =>
                simp only [htag] at h
                cases hend : strstr hostEndTag (p.2.drop 6) with
                | none => simp only [hend] at h; cases h
                | some answer' =>
                    cases answer' with
                    | none => exact ⟨[], .noEndTag hcount htag hend⟩
                    | some q =>
                        simp only [hend] at h
                        obtain ⟨mem₁, -, hrest⟩ := Option.bind_eq_some_iff.mp h
                        obtain ⟨names, hnames⟩ := ih hrest
                        exact ⟨q.1 :: names, .entry hcount htag hend hnames⟩
      · exact ⟨[], .counted (not_lt.mp hcount)⟩

/-- The entries are strings. -/
lemma Listed.nul_free (h : Listed nbytes text names) : ∀ name ∈ names, (0 : UInt8) ∉ name := by
  induction h with
  | counted | noTag | noEndTag => exact fun name hname => absurd hname List.not_mem_nil
  | entry h htag hend hrest ih =>
      exact List.forall_mem_cons.mpr ⟨(strstr_found hend).2.2, ih⟩

/-- Behind a needle that was found. -/
lemma drop_append_of_found (k : ℕ) {needle block before found : Bytes} (hk : needle.length = k)
    (h : strstr needle block = some (some (before, found))) (more : Bytes) :
    (found ++ more).drop k = found.drop k ++ more :=
  List.drop_append_of_le_length (hk ▸ (strstr_found h).2.1.length_le)

/-- Bytes behind those that decide the entries do not matter. -/
lemma Listed.append (h : Listed nbytes text names) (more : Bytes) :
    Listed nbytes (text ++ more) names := by
  have htags : (0 : UInt8) ∉ hostTag ∧ (0 : UInt8) ∉ hostEndTag := by decide
  induction h with
  | counted h => exact .counted h
  | noTag h htag => exact .noTag h (strstr_append htags.1 htag more)
  | @noEndTag nbytes text before found h htag hend =>
      refine .noEndTag h (strstr_append htags.1 htag more) ?_
      show strstr hostEndTag ((found ++ more).drop 6) = some none
      rw [drop_append_of_found 6 rfl htag]
      exact strstr_append htags.2 hend more
  | @entry nbytes text before found name rest names h htag hend hrest ih =>
      refine .entry h (strstr_append htags.1 htag more) ?_
        ((drop_append_of_found 7 rfl hend more).symm ▸ ih)
      show strstr hostEndTag ((found ++ more).drop 6) = some (some (name, rest ++ more))
      rw [drop_append_of_found 6 rfl htag]
      exact strstr_append htags.2 hend more

/-- **Bytes that end no search** behind a text list no entries. -/
lemma listed_of_append {more : Bytes}
    (hmore : ∀ b ∈ more, b ∉ hostTag ∧ b ∉ hostEndTag ∧ b ≠ 0)
    (h : Listed nbytes (text ++ more) names) : Listed nbytes text names := by
  have htags : ∀ {block : Bytes} {found : Found},
      strstr hostTag (block ++ more) = some found →
      ∃ inside, strstr hostTag block = some inside ∧ found = inside.extend more :=
    strstr_of_append (by decide) (by decide) fun b hb => ⟨(hmore b hb).1, (hmore b hb).2.2⟩
  have hends : ∀ {block : Bytes} {found : Found},
      strstr hostEndTag (block ++ more) = some found →
      ∃ inside, strstr hostEndTag block = some inside ∧ found = inside.extend more :=
    strstr_of_append (by decide) (by decide) fun b hb => (hmore b hb).2
  -- the induction is on the entries of the longer text
  generalize hlong : text ++ more = long at h
  induction h generalizing text with
  | counted h => exact .counted h
  | noTag h htag =>
      subst hlong
      obtain ⟨inside, hinside, hfound⟩ := htags htag
      cases inside with
      | none => exact .noTag h hinside
      | some p => cases hfound
  | noEndTag h htag hend =>
      subst hlong
      obtain ⟨inside, hinside, hfound⟩ := htags htag
      cases inside with
      | none => cases hfound
      | some p =>
          cases hfound
          rw [drop_append_of_found 6 rfl hinside] at hend
          obtain ⟨inside', hinside', hfound'⟩ := hends hend
          cases inside' with
          | none => exact .noEndTag h hinside hinside'
          | some q => cases hfound'
  | entry h htag hend hrest ih =>
      subst hlong
      obtain ⟨inside, hinside, hfound⟩ := htags htag
      cases inside with
      | none => cases hfound
      | some p =>
          cases hfound
          rw [drop_append_of_found 6 rfl hinside] at hend
          obtain ⟨inside', hinside', hfound'⟩ := hends hend
          cases inside' with
          | none => cases hfound'
          | some q =>
              cases hfound'
              exact .entry h hinside hinside' (ih (drop_append_of_found 7 rfl hinside' _).symm)

end Entries

/-! ### What is in the blocks -/

/-- A block begins with a string. -/
def Block.Holds (name : Bytes) (block : Block) : Prop := ∃ rest, block.1 = name ++ 0 :: rest

/-- The blocks from the entry 1 on hold the names. -/
def HostMemory.Holds (names : List Bytes) (mem : HostMemory) : Prop :=
  ∀ k name, names[k]? = some name →
    (mem.hosts (k + 1)).Holds name ∧ (mem.ips (k + 1)).Holds name

section Blocks

variable {name : Bytes} {names : List Bytes} {block block' : Block} {mem mem' : HostMemory}

lemma Block.write_isSome_iff : (block.write name).isSome ↔ name.length < 64 := by
  rw [Block.write]
  split_ifs with hlen
  · exact iff_of_true rfl hlen
  · exact iff_of_false Bool.false_ne_true hlen

lemma Block.holds_of_write (h : block.write name = some block') : block'.Holds name := by
  rw [Block.write] at h
  split_ifs at h with hlen
  cases h
  exact ⟨_, rfl⟩

/-- The local address matches the names that begin with it. -/
lemma Block.matches_iff (h : block.Holds name) (ip : LocalIp) :
    block.matches ip ↔ ip.1 <+: name := by
  obtain ⟨rest, hrest⟩ := h
  have hbegins : block.matches ip ↔ ip.1 <+: name ++ 0 :: rest := by
    rw [Block.matches, hrest, List.prefix_iff_eq_take, eq_comm]
  rw [hbegins, prefix_append_iff]
  -- the NUL of the name is not in the address
  intro b hb
  obtain rfl := Option.some.inj hb
  exact ip.2.1

/-- The string in a block that holds a name. -/
lemma Block.Holds.cstrAt_eq (h : block.Holds name) (hname : (0 : UInt8) ∉ name) :
    cstrAt block.1 0 = some name := by
  obtain ⟨rest, hrest⟩ := h
  rw [hrest]
  exact cstrAt_append_right [] hname rest

/-- The string that is copied from a block. -/
lemma copyIp_eq (h : block.Holds name) (hname : (0 : UInt8) ∉ name) :
    copyIp block = put (zeros 32).1 0 name := by
  rw [copyIp, h.cstrAt_eq hname]
  rfl

lemma copyIp_isSome_iff (h : block.Holds name) (hname : (0 : UInt8) ∉ name) :
    (copyIp block).isSome ↔ name.length ≤ 32 := by
  rw [copyIp_eq h hname, put_isSome_iff, (zeros 32).2]
  omega

/-- What an entry changes. -/
lemma HostMemory.store_cases {i : ℕ} (h : mem.store i name = some mem') :
    (mem'.hosts i).Holds name ∧ (mem'.ips i).Holds name ∧
      ∀ k, k ≠ i → mem'.hosts k = mem.hosts k ∧ mem'.ips k = mem.ips k := by
  rw [store] at h
  split_ifs at h with hi
  obtain ⟨host, hhost, h⟩ := Option.bind_eq_some_iff.mp h
  obtain ⟨ip, hip, h⟩ := Option.bind_eq_some_iff.mp h
  cases h
  simp only [Function.update_self]
  refine ⟨Block.holds_of_write hhost, Block.holds_of_write hip, fun k hk => ?_⟩
  exact ⟨Function.update_of_ne hk _ _, Function.update_of_ne hk _ _⟩

lemma HostMemory.store_isSome_iff {i : ℕ} :
    (mem.store i name).isSome ↔ i < maxNumHosts + 1 ∧ name.length < 64 := by
  rw [store]
  split_ifs with hi
  · cases hhost : (mem.hosts i).write name with
    | none =>
        have hlen : ¬name.length < 64 := by rw [← Block.write_isSome_iff, hhost]; decide
        simp [hlen]
    | some host =>
        have hlen : name.length < 64 := Block.write_isSome_iff.mp (Option.isSome_of_eq_some hhost)
        obtain ⟨ip, hip⟩ := Option.isSome_iff_exists.mp
          (Block.write_isSome_iff.mpr hlen : ((mem.ips i).write name).isSome)
        simp [hip, hi, hlen]
  · simp [hi]

/-- **All entries are stored** exactly when there are blocks for them and they fit. -/
lemma HostMemory.storeAll_isSome_iff {i : ℕ} (hi : i ≤ maxNumHosts + 1) :
    (mem.storeAll i names).isSome ↔
      i + names.length ≤ maxNumHosts + 1 ∧ ∀ name ∈ names, name.length < 64 := by
  induction names generalizing i mem with
  | nil => simpa [storeAll] using hi
  | cons name names ih =>
      rw [storeAll, List.length_cons, List.forall_mem_cons]
      cases hstore : mem.store i name with
      | none =>
          have hnot : ¬(i < maxNumHosts + 1 ∧ name.length < 64) := by
            intro hfits
            have hsome : (mem.store i name).isSome := store_isSome_iff.mpr hfits
            rw [hstore] at hsome
            cases hsome
          refine iff_of_false Bool.false_ne_true fun h => hnot ⟨?_, h.2.1⟩
          have hlen := h.1
          omega
      | some mem₁ =>
          obtain ⟨hlt, hlen⟩ := store_isSome_iff.mp (Option.isSome_of_eq_some hstore)
          rw [Option.bind_some, ih (show i + 1 ≤ maxNumHosts + 1 from hlt), and_iff_right hlen,
            add_assoc, add_comm 1]

/-- The entries of a file are stored from the entry 1 on. -/
lemma HostMemory.exists_storeAll_iff :
    (∃ mem', mem.storeAll 1 names = some mem') ↔
      names.length ≤ maxNumHosts ∧ ∀ name ∈ names, name.length < 64 := by
  rw [← Option.isSome_iff_exists, storeAll_isSome_iff (Nat.le_add_left 1 _), add_comm 1,
    Nat.add_le_add_iff_right]

/-- **What all entries change**: the places from `i` on hold their names, and the others are as they
were. -/
lemma HostMemory.storeAll_cases {i : ℕ} (h : mem.storeAll i names = some mem') :
    (∀ k name, names[k]? = some name →
        (mem'.hosts (i + k)).Holds name ∧ (mem'.ips (i + k)).Holds name) ∧
      ∀ k, (k < i ∨ i + names.length ≤ k) →
        mem'.hosts k = mem.hosts k ∧ mem'.ips k = mem.ips k := by
  induction names generalizing i mem with
  | nil =>
      cases h
      refine ⟨fun k name hname => ?_, fun k _ => ⟨rfl, rfl⟩⟩
      cases hname
  | cons name names ih =>
      obtain ⟨mem₁, hstore, hrest⟩ := Option.bind_eq_some_iff.mp h
      obtain ⟨hhost, hip, hother⟩ := store_cases hstore
      obtain ⟨hheld, hsame⟩ := ih hrest
      constructor
      · intro k name' hname'
        cases k with
        | zero =>
            cases hname'
            obtain ⟨hhosts, hips⟩ := hsame i (.inl i.lt_succ_self)
            rw [add_zero, hhosts, hips]
            exact ⟨hhost, hip⟩
        | succ k =>
            rw [show i + (k + 1) = i + 1 + k by omega]
            exact hheld k name' hname'
      · intro k hk
        rw [List.length_cons] at hk
        obtain ⟨hhosts, hips⟩ := hsame k (by omega)
        obtain ⟨hhosts', hips'⟩ := hother k (by omega)
        exact ⟨hhosts.trans hhosts', hips.trans hips'⟩

/-- Stored from the entry 1 on, the names are held. -/
lemma HostMemory.holds_of_storeAll (h : mem.storeAll 1 names = some mem') : mem'.Holds names := by
  intro k name hname
  rw [add_comm]
  exact (storeAll_cases h).1 k name hname

end Blocks

/-! ### The local address -/

section LocalId

variable {ip : LocalIp} {mem : HostMemory} {names : List Bytes}

/-- The last entry is looked at last. -/
lemma localIdOf_succ (ip : LocalIp) (mem : HostMemory) (n : ℕ) :
    localIdOf ip mem (n + 1) =
      if (mem.hosts (n + 1)).matches ip then ((n + 1 : ℕ) : ℤ) else localIdOf ip mem n := by
  rw [localIdOf, List.range_succ, List.foldl_append]
  rfl

/-- **The loop finds the last match**, if there is one. -/
lemma localIdOf_cases (ip : LocalIp) (mem : HostMemory) (n : ℕ) :
    (localIdOf ip mem n = -1 ∧ ∀ k < n, ¬(mem.hosts (k + 1)).matches ip) ∨
      ∃ k < n, localIdOf ip mem n = ((k + 1 : ℕ) : ℤ) ∧ (mem.hosts (k + 1)).matches ip ∧
        ∀ l, k < l → l < n → ¬(mem.hosts (l + 1)).matches ip := by
  induction n with
  | zero => exact .inl ⟨rfl, fun k hk => absurd hk (Nat.not_lt_zero k)⟩
  | succ n ih =>
      rw [localIdOf_succ]
      split_ifs with hmatch
      · exact .inr ⟨n, n.lt_succ_self, rfl, hmatch, fun l hl hlt => by omega⟩
      · rcases ih with ⟨hnone, hall⟩ | ⟨k, hk, hid, hmatched, hlater⟩
        · refine .inl ⟨hnone, fun k hk => ?_⟩
          rcases Nat.lt_succ_iff_lt_or_eq.mp hk with hlt | rfl
          · exact hall k hlt
          · exact hmatch
        · refine .inr ⟨k, by omega, hid, hmatched, fun l hl hlt => ?_⟩
          rcases Nat.lt_succ_iff_lt_or_eq.mp hlt with hlt | rfl
          · exact hlater l hl hlt
          · exact hmatch

/-- An entry matches if its name begins with the address. -/
lemma matches_getElem (h : mem.Holds names) {k : ℕ} (hk : k < names.length) :
    (mem.hosts (k + 1)).matches ip ↔ ip.1 <+: names[k] :=
  Block.matches_iff (h k names[k] (List.getElem?_eq_getElem hk)).1 ip

/-- **The local address is not listed** exactly when no name begins with it. -/
lemma localIdOf_eq_neg_one_iff (h : mem.Holds names) :
    localIdOf ip mem names.length = -1 ↔ ∀ name ∈ names, ¬ip.1 <+: name := by
  constructor
  · intro hid name hname
    obtain ⟨k, hk, rfl⟩ := List.mem_iff_getElem.mp hname
    rcases localIdOf_cases ip mem names.length with ⟨-, hall⟩ | ⟨l, -, hl, -⟩
    · exact fun hbegins => hall k hk ((matches_getElem h hk).mpr hbegins)
    · omega
  · intro hnone
    rcases localIdOf_cases ip mem names.length with ⟨hid, -⟩ | ⟨k, hk, -, hmatch, -⟩
    · exact hid
    · exact absurd ((matches_getElem h hk).mp hmatch) (hnone _ (List.getElem_mem hk))

/-- The local address is listed exactly when some name begins with it. -/
lemma localIdOf_ne_neg_one_iff (h : mem.Holds names) :
    localIdOf ip mem names.length ≠ -1 ↔ ∃ name ∈ names, ip.1 <+: name := by
  rw [Ne, localIdOf_eq_neg_one_iff h]
  push Not
  rfl

end LocalId

/-! ### The result -/

section Result

variable {ip : LocalIp} {file : Bytes} {u : Uninitialised}

/-- What is made of the stored entries: the process exits without the local address. -/
def configured (ip : LocalIp) (names : List Bytes) (mem : HostMemory) : Option Configuration :=
  if localIdOf ip mem names.length = -1 then none
  else some ⟨names.length, localIdOf ip mem names.length, mem⟩

/-- **`read_host_config_file` on the entries of its text.** -/
lemma readHostConfigFile_eq {names : List Bytes}
    (h : Listed (file.take 1024).length (u.text file) names) :
    readHostConfigFile ip file u = (u.blocks.storeAll 1 names).map (configured ip names) := by
  rw [readHostConfigFile]
  simp only [readEntries_eq h (Nat.lt_succ_self _)]
  cases u.blocks.storeAll 1 names with
  | none => rfl
  | some mem =>
      have hcount : 1 + names.length - 1 = names.length := Nat.add_sub_cancel_left 1 _
      simp only [Option.map_some, Option.bind_eq_bind, Option.bind_some, hcount]
      rfl

/-- There are entries if it ends. -/
lemma listed_of_readHostConfigFile {r : Option Configuration}
    (h : readHostConfigFile ip file u = some r) :
    ∃ names, Listed (file.take 1024).length (u.text file) names := by
  obtain ⟨_, hread, -⟩ := Option.bind_eq_some_iff.mp h
  exact listed_of_readEntries hread

end Result

end Epbs
