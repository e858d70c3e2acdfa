/-
What the start of a node depends on: the hosts file and the local address, or also what was
in memory before.

* `Started`: what `read_host_config_file` and `hostq_init` leave, the names as strings;
* `epbsStart`: both, `none` if one of them reads or writes outside its memory;
* `FromInputsOnly`: the outcome is the same for every memory;
* `InputsDecide`: the bytes of the file end every search, the entries fit, and where the
  local address is listed there are `MAX_NUM_HOSTS` of them;
* `fromInputsOnly_iff`: these are the files of which the start depends on nothing else.
-/
import Mathlib.Data.List.GetD
import Epbs.Startup.Bounds

namespace Epbs

open Words Strings

/-- **What the start leaves**: the names in `hosts[1..num_hosts]` and `ips[1..num_hosts]` as
strings, and the host table. -/
structure Started where
  numHosts : ℕ
  localId : ℤ
  hosts : List Bytes
  ips : List Bytes
  hostq : List EpbsHostInfo
  deriving DecidableEq

/-- The strings in the entries from 1 on. -/
def stringsIn (blocks : ℕ → Block) (n : ℕ) : Option (List Bytes) :=
  (List.range n).mapM fun i => cstrAt (blocks (i + 1)).1 0

/-- What is seen of a configuration after `hostq_init`. -/
def started (c : Configuration) : Option Started := do
  let hosts ← stringsIn c.mem.hosts c.numHosts
  let ips ← stringsIn c.mem.ips c.numHosts
  let hostq ← hostqInit c.mem
  return ⟨c.numHosts, c.localId, hosts, ips, hostq⟩

/-- **`read_host_config_file` and then `hostq_init`** in `epbssrv_configure`; an exit is an
outcome too. -/
def epbsStart (ip : LocalIp) (file : Bytes) (u : Uninitialised) : Option (Option Started) :=
  (readHostConfigFile ip file u).bind fun
    | none => some none
    | some c => (started c).map some

/-- **Startup depends only on its inputs**: it has the same outcome in every memory. -/
def FromInputsOnly (ip : LocalIp) (file : Bytes) : Prop :=
  ∃ outcome, ∀ u, epbsStart ip file u = some outcome

/-- The bytes of the file decide its entries, which fit; and where the local address is
listed, they fill all of the host table with addresses of at most 32 bytes. -/
def InputsDecide (ip : LocalIp) (file : Bytes) : Prop :=
  ∃ names, Listed file.length file names ∧ names.length ≤ maxNumHosts ∧
    (∀ name ∈ names, name.length < 64) ∧
    ((∃ name ∈ names, ip.1 <+: name) →
      names.length = maxNumHosts ∧ ∀ name ∈ names, name.length ≤ 32)

section Inputs

variable {ip : LocalIp} {file : Bytes} {names : List Bytes} {mem : HostMemory}

/-- A file that fits `rbuffer` is read whole. -/
lemma text_eq (h : file.length < 1024) (u : Uninitialised) :
    u.text file = file ++ u.rbuffer.1.drop file.length := by
  rw [Uninitialised.text, List.take_of_length_le h.le]

/-- The entries of the file are those of `rbuffer`. -/
lemma listed_text (h : file.length < 1024) (u : Uninitialised)
    (hlisted : Listed file.length file names) :
    Listed (file.take 1024).length (u.text file) names := by
  rw [text_eq h, List.take_of_length_le h.le]
  exact hlisted.append _

/-- The strings of blocks that hold names. -/
lemma stringsIn_eq {blocks : ℕ → Block} (hnul : ∀ name ∈ names, (0 : UInt8) ∉ name)
    (hheld : ∀ k name, names[k]? = some name → (blocks (k + 1)).Holds name) :
    stringsIn blocks names.length = some ((List.range names.length).map (names.getD · [])) := by
  refine mapM_eq_some fun k hk => ?_
  have hlt := List.mem_range.mp hk
  obtain ⟨rest, hrest⟩ := hheld k names[k] (List.getElem?_eq_getElem hlt)
  rw [hrest, List.getD_eq_getElem _ _ hlt]
  exact cstrAt_append_right [] (hnul _ (List.getElem_mem hlt)) rest

/-- A field of 32 bytes with an address at its start. -/
def ipField (name : Bytes) : Bytes := name ++ (zeros 32).1.drop name.length

lemma copyIp_of_holds {block : Block} {name : Bytes} (h : block.Holds name)
    (hnul : (0 : UInt8) ∉ name) (hshort : name.length ≤ 32) :
    copyIp block = some (ipField name) := by
  rw [copyIp_eq h hnul, put, if_pos (by rw [(zeros 32).2]; omega), ipField]
  simp

/-- The host table of a full list of names. -/
def hostTable (names : List Bytes) : List EpbsHostInfo :=
  (List.range maxNumHosts).map fun i =>
    ⟨(i + 1 : ℕ), HostStat.online.code, ipField (names.getD i [])⟩

/-- **A full list of names** is all that the host table is made of. -/
lemma hostqInit_eq (hheld : mem.Holds names) (hnul : ∀ name ∈ names, (0 : UInt8) ∉ name)
    (hfull : names.length = maxNumHosts) (hshort : ∀ name ∈ names, name.length ≤ 32) :
    hostqInit mem = some (hostTable names) := by
  refine mapM_eq_some fun k hk => ?_
  have hlt : k < names.length := hfull ▸ List.mem_range.mp hk
  have hmem := List.getElem_mem hlt
  rw [copyIp_of_holds (hheld k _ (List.getElem?_eq_getElem hlt)).2 (hnul _ hmem) (hshort _ hmem),
    List.getD_eq_getElem _ _ hlt]
  rfl

/-- The local id of a memory that holds names is made of the names. -/
lemma localIdOf_congr {mem' : HostMemory} (h : mem.Holds names) (h' : mem'.Holds names) :
    localIdOf ip mem names.length = localIdOf ip mem' names.length := by
  refine List.foldl_ext _ _ _ fun localId k hk => ?_
  have hlt := List.mem_range.mp hk
  exact if_congr ((matches_getElem h hlt).trans (matches_getElem h' hlt).symm) rfl rfl

/-- An entry of the host table is made of its block. -/
lemma copyIp_of_hostqInit {hostq : List EpbsHostInfo} (h : hostqInit mem = some hostq) {k : ℕ}
    (hk : k < maxNumHosts) :
    ∃ field, copyIp (mem.ips (k + 1)) = some field ∧
      hostq[k]? = some ⟨(k + 1 : ℕ), HostStat.online.code, field⟩ := by
  obtain ⟨entry, hentry, hget⟩ := getElem?_of_mapM h (List.getElem?_range hk)
  obtain ⟨field, hfield, heq⟩ := Option.bind_eq_some_iff.mp hentry
  cases heq
  exact ⟨field, hfield, hget⟩

/-- **What is left by a full list of names.** -/
lemma started_eq (localId : ℤ) (hheld : mem.Holds names)
    (hnul : ∀ name ∈ names, (0 : UInt8) ∉ name) (hfull : names.length = maxNumHosts)
    (hshort : ∀ name ∈ names, name.length ≤ 32) :
    started ⟨names.length, localId, mem⟩ =
      some ⟨names.length, localId, (List.range names.length).map (names.getD · []),
        (List.range names.length).map (names.getD · []), hostTable names⟩ := by
  simp only [started, stringsIn_eq hnul fun k name hk => (hheld k name hk).1,
    stringsIn_eq hnul fun k name hk => (hheld k name hk).2,
    hostqInit_eq hheld hnul hfull hshort, Option.bind_eq_bind, Option.bind_some]
  rfl

/-- A start that is defined stores its entries. -/
lemma stored_of_epbsStart {u : Uninitialised} {outcome : Option Started}
    (hlisted : Listed (file.take 1024).length (u.text file) names)
    (h : epbsStart ip file u = some outcome) : ∃ mem, u.blocks.storeAll 1 names = some mem := by
  obtain ⟨r, hread, -⟩ := Option.bind_eq_some_iff.mp h
  rw [readHostConfigFile_eq hlisted] at hread
  obtain ⟨mem, hstore, -⟩ := Option.map_eq_some_iff.mp hread
  exact ⟨mem, hstore⟩

/-- **The start with the entries stored.** -/
lemma epbsStart_eq {u : Uninitialised}
    (hlisted : Listed (file.take 1024).length (u.text file) names)
    (hstore : u.blocks.storeAll 1 names = some mem) :
    epbsStart ip file u =
      if ∀ name ∈ names, ¬ip.1 <+: name then some none
      else (started ⟨names.length, localIdOf ip mem names.length, mem⟩).map some := by
  have hnone : localIdOf ip mem names.length = -1 ↔ _ :=
    localIdOf_eq_neg_one_iff (HostMemory.holds_of_storeAll hstore)
  rw [epbsStart, readHostConfigFile_eq hlisted, hstore, Option.map_some, Option.bind_some,
    configured]
  by_cases hid : localIdOf ip mem names.length = -1
  · rw [if_pos hid, if_pos (hnone.mp hid)]
  · rw [if_neg hid, if_neg fun hall => hid (hnone.mpr hall)]

/-- A byte that is in no tag. -/
lemma one_stray : (1 : UInt8) ∉ hostTag ∧ (1 : UInt8) ∉ hostEndTag ∧ (1 : UInt8) ≠ 0 := by
  decide

/-- A memory with a byte in `rbuffer` and a byte at the start of each address. -/
def filledMemory (stale c : UInt8) : Uninitialised :=
  ⟨⟨List.replicate 1024 stale, List.length_replicate⟩, fun _ => zeros 64,
    fun _ => ⟨c :: (zeros 63).1, congrArg Nat.succ (zeros 63).2⟩⟩

/-- What is copied from such a block. -/
lemma copyIp_filled (stale : UInt8) (k : ℕ) :
    copyIp ((filledMemory stale 0).blocks.ips k) = some (zeros 32).1 ∧
      copyIp ((filledMemory stale 1).blocks.ips k) = some (1 :: (zeros 31).1) := by
  constructor <;> rfl

/-- **A file whose start depends on nothing else** decides its entries. -/
lemma listed_of_fromInputsOnly (h : file.length < 1024) (honly : FromInputsOnly ip file) :
    ∃ names, Listed file.length file names := by
  obtain ⟨outcome, hall⟩ := honly
  obtain ⟨r, hread, -⟩ := Option.bind_eq_some_iff.mp (hall (filledMemory 1 0))
  obtain ⟨names, hlisted⟩ := listed_of_readHostConfigFile hread
  rw [text_eq h, List.take_of_length_le h.le] at hlisted
  refine ⟨names, listed_of_append (fun b hb => ?_) hlisted⟩
  obtain rfl := List.eq_of_mem_replicate (List.mem_of_mem_drop hb)
  exact one_stray

/-- **What the host table shows** where the local address is listed: the copy of every
block, and behind the entries the blocks as `malloc` gave them. -/
lemma hostq_of_epbsStart {u : Uninitialised} {outcome : Option Started}
    (hlisted : Listed (file.take 1024).length (u.text file) names)
    (hfound : ∃ name ∈ names, ip.1 <+: name) (h : epbsStart ip file u = some outcome) :
    ∃ mem result, u.blocks.storeAll 1 names = some mem ∧ outcome = some result ∧
      hostqInit mem = some result.hostq := by
  obtain ⟨mem, hstore⟩ := stored_of_epbsStart hlisted h
  obtain ⟨name, hname, hbegins⟩ := hfound
  rw [epbsStart_eq hlisted hstore, if_neg fun hall => hall name hname hbegins] at h
  obtain ⟨result, hresult, rfl⟩ := Option.map_eq_some_iff.mp h
  obtain ⟨hosts, -, hresult⟩ := Option.bind_eq_some_iff.mp hresult
  obtain ⟨ips, -, hresult⟩ := Option.bind_eq_some_iff.mp hresult
  obtain ⟨hostq, hhostq, hresult⟩ := Option.bind_eq_some_iff.mp hresult
  cases hresult
  exact ⟨mem, _, hstore, rfl, hhostq⟩

/-- A block behind the entries is seen in the host table. -/
lemma unfilled_of_epbsStart {u : Uninitialised} {outcome : Option Started}
    (hlisted : Listed (file.take 1024).length (u.text file) names)
    (hfound : ∃ name ∈ names, ip.1 <+: name) (hfew : names.length < maxNumHosts)
    (h : epbsStart ip file u = some outcome) :
    ∃ field, copyIp (u.blocks.ips (names.length + 1)) = some field ∧
      outcome.bind (fun result => result.hostq[names.length]?) =
        some ⟨(names.length + 1 : ℕ), HostStat.online.code, field⟩ := by
  obtain ⟨mem, result, hstore, rfl, hhostq⟩ := hostq_of_epbsStart hlisted hfound h
  obtain ⟨field, hfield, hget⟩ := copyIp_of_hostqInit hhostq hfew
  rw [((HostMemory.storeAll_cases hstore).2 (names.length + 1) (.inr (add_comm 1 _).le)).2]
    at hfield
  exact ⟨field, hfield, hget⟩

/-- **The entries fill the host table**: two memories that differ in a block without an entry
are seen in it. -/
lemma length_of_fromInputsOnly (hlisted : ∀ u : Uninitialised,
      Listed (file.take 1024).length (u.text file) names)
    (hcount : names.length ≤ maxNumHosts) (hfound : ∃ name ∈ names, ip.1 <+: name)
    (honly : FromInputsOnly ip file) : names.length = maxNumHosts := by
  obtain ⟨outcome, hall⟩ := honly
  by_contra hnot
  have hfew : names.length < maxNumHosts := lt_of_le_of_ne hcount hnot
  obtain ⟨field, hfield, hshown⟩ :=
    unfilled_of_epbsStart (hlisted _) hfound hfew (hall (filledMemory 1 0))
  obtain ⟨field', hfield', hshown'⟩ :=
    unfilled_of_epbsStart (hlisted _) hfound hfew (hall (filledMemory 1 1))
  rw [(copyIp_filled 1 _).1] at hfield
  rw [(copyIp_filled 1 _).2] at hfield'
  have hsame : field = field' :=
    congrArg EpbsHostInfo.ip (Option.some.inj (hshown.symm.trans hshown'))
  rw [← hsame, ← Option.some.inj hfield] at hfield'
  exact absurd hfield' (by decide)

/-- The entries of a host table fit its addresses. -/
lemma length_le_of_epbsStart {u : Uninitialised} {outcome : Option Started}
    (hlisted : Listed (file.take 1024).length (u.text file) names)
    (hcount : names.length ≤ maxNumHosts) (hfound : ∃ name ∈ names, ip.1 <+: name)
    (h : epbsStart ip file u = some outcome) : ∀ name ∈ names, name.length ≤ 32 := by
  intro name hname
  obtain ⟨k, hk, rfl⟩ := List.mem_iff_getElem.mp hname
  obtain ⟨mem, result, hstore, -, hhostq⟩ := hostq_of_epbsStart hlisted hfound h
  obtain ⟨field, hfield, -⟩ := copyIp_of_hostqInit hhostq (hk.trans_le hcount)
  have hheld := HostMemory.holds_of_storeAll hstore k _ (List.getElem?_eq_getElem hk)
  exact (copyIp_isSome_iff hheld.2 (hlisted.nul_free _ hname)).mp (Option.isSome_of_eq_some hfield)

/-- **The outcome of entries that fill the host table**, in every memory. -/
lemma epbsStart_of_inputsDecide {u u₀ : Uninitialised} {mem₀ : HostMemory}
    (hlisted : Listed (file.take 1024).length (u.text file) names)
    (hcount : names.length ≤ maxNumHosts) (hlen : ∀ name ∈ names, name.length < 64)
    (hfull : (∃ name ∈ names, ip.1 <+: name) →
      names.length = maxNumHosts ∧ ∀ name ∈ names, name.length ≤ 32)
    (hstore₀ : u₀.blocks.storeAll 1 names = some mem₀) :
    epbsStart ip file u =
      some (if ∀ name ∈ names, ¬ip.1 <+: name then none else
        some ⟨names.length, localIdOf ip mem₀ names.length,
          (List.range names.length).map (names.getD · []),
          (List.range names.length).map (names.getD · []), hostTable names⟩) := by
  obtain ⟨mem, hstore⟩ : ∃ mem, u.blocks.storeAll 1 names = some mem :=
    HostMemory.exists_storeAll_iff.mpr ⟨hcount, hlen⟩
  have hheld := HostMemory.holds_of_storeAll hstore
  rw [epbsStart_eq hlisted hstore]
  split_ifs with hnone
  · rfl
  · push Not at hnone
    obtain ⟨hcount', hshort⟩ := hfull hnone
    rw [started_eq _ hheld hlisted.nul_free hcount' hshort,
      localIdOf_congr hheld (HostMemory.holds_of_storeAll hstore₀)]
    rfl

end Inputs

/-- **Startup depends only on its inputs** exactly when the bytes of the file decide its
entries and, where the local address is listed, the entries fill the host table. -/
theorem fromInputsOnly_iff (ip : LocalIp) {file : Bytes} (h : file.length < 1024) :
    FromInputsOnly ip file ↔ InputsDecide ip file := by
  constructor
  · intro honly
    obtain ⟨names, hnames⟩ := listed_of_fromInputsOnly h honly
    have hlisted := fun u => listed_text h u hnames
    have ⟨outcome, hall⟩ := honly
    obtain ⟨hcount, hlen⟩ := HostMemory.exists_storeAll_iff.mp
      (stored_of_epbsStart (hlisted zeroMemory) (hall zeroMemory))
    exact ⟨names, hnames, hcount, hlen, fun hfound =>
      ⟨length_of_fromInputsOnly hlisted hcount hfound honly,
        length_le_of_epbsStart (hlisted zeroMemory) hcount hfound (hall zeroMemory)⟩⟩
  · rintro ⟨names, hnames, hcount, hlen, hfull⟩
    obtain ⟨mem₀, hstore₀⟩ : ∃ mem₀, zeroMemory.blocks.storeAll 1 names = some mem₀ :=
      HostMemory.exists_storeAll_iff.mpr ⟨hcount, hlen⟩
    exact ⟨_, fun u => epbsStart_of_inputsDecide (listed_text h u hnames) hcount hlen hfull hstore₀⟩

theorem fromInputsOnly_iff_five :
    FromInputsOnly firstIp (hostsFile ([1, 2, 3, 4, 5].map address)) ↔
      InputsDecide firstIp (hostsFile ([1, 2, 3, 4, 5].map address)) :=
  fromInputsOnly_iff firstIp (by decide)

/-- A file of two hosts, one in a line. -/
def twoHosts : Bytes := hostsFile [address 1] ++ 10 :: (hostsFile [address 2] ++ [10])

/-- With two hosts the third entry of the host table is what `malloc` gave. -/
theorem two_hosts_show_memory :
    twoHosts.length < 1024 ∧ ¬FromInputsOnly firstIp twoHosts := by
  have hdiffer : epbsStart firstIp twoHosts (filledMemory 0 0) ≠
      epbsStart firstIp twoHosts (filledMemory 0 1) := by
    decide +kernel
  refine ⟨by decide, ?_⟩
  rintro ⟨outcome, hall⟩
  exact hdiffer ((hall _).trans (hall _).symm)

end Epbs
