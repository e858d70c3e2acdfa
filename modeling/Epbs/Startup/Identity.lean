/-
Which node a machine takes itself for: `local_id`, on all machines that read one hosts file.

* `HostNames`: the host list, distinct addresses;
* `nodeId`: the `local_id` that a machine computes, if its process does not exit;
* `startsMaster`: the test in `main` before the threads of the master;
* `NodeIdentity`: every listed machine finds its own entry, no two machines find the same,
  and the machine listed first is the master;
* `nodeId_eq_iff`: a machine finds its own entry exactly when no later one begins with its
  address;
* `node_identity_iff`: the host lists of which that is true for all machines.
-/
import Epbs.Startup.Bounds

namespace Epbs

open Words Strings

/-- **A host list**: pairwise distinct strings that fit the blocks. -/
abbrev HostNames :=
  {names : List Bytes // names.Nodup ∧ ∀ name ∈ names, (0 : UInt8) ∉ name ∧ name.length < 64}

/-- The `local_id` of a machine after `read_host_config_file`, with the host list in its
memory. -/
def nodeId (ip : LocalIp) (names : List Bytes) (mem : HostMemory) : Option ℤ :=
  (configured ip names mem).map (·.localId)

/-- `if(local_id == 1)` in `main`. -/
def startsMaster (id : Option ℤ) : Prop := id = some 1

/-- **Node identity is right and distinct**, on all machines of the list. -/
structure NodeIdentity (names : List Bytes) : Prop where
  right : ∀ (ip : LocalIp) (mem : HostMemory), mem.Holds names → ∀ k : ℕ,
    names[k]? = some ip.1 → nodeId ip names mem = some ((k : ℤ) + 1)
  distinct : ∀ (ip ip' : LocalIp) (mem mem' : HostMemory), mem.Holds names → mem'.Holds names →
    ip.1 ∈ names → ip'.1 ∈ names → ip ≠ ip' → nodeId ip names mem ≠ nodeId ip' names mem'
  master : ∀ (ip : LocalIp) (mem : HostMemory), mem.Holds names → ip.1 ∈ names →
    (startsMaster (nodeId ip names mem) ↔ names.head? = some ip.1)

section NodeId

variable {ip : LocalIp} {names : List Bytes} {mem : HostMemory} {k : ℕ}

/-- A machine whose address is in the list does not exit. -/
lemma nodeId_eq (h : mem.Holds names) (hk : names[k]? = some ip.1) :
    nodeId ip names mem = some (localIdOf ip mem names.length) := by
  rw [nodeId, configured, if_neg]
  · rfl
  · rw [localIdOf_eq_neg_one_iff h]
    exact fun hnone => hnone _ (List.mem_of_getElem? hk) List.prefix_rfl

/-- **A machine finds its own entry** exactly when no later entry begins with its address. -/
lemma nodeId_eq_iff (h : mem.Holds names) (hk : names[k]? = some ip.1) :
    nodeId ip names mem = some ((k : ℤ) + 1) ↔
      ∀ l name, k < l → names[l]? = some name → ¬ip.1 <+: name := by
  obtain ⟨hlt, hname⟩ := List.getElem?_eq_some_iff.mp hk
  have hown : (mem.hosts (k + 1)).matches ip :=
    (matches_getElem h hlt).mpr (hname ▸ List.prefix_rfl)
  rw [nodeId_eq h hk, Option.some.injEq]
  rcases localIdOf_cases ip mem names.length with ⟨-, hall⟩ | ⟨m, hm, hid, hmatch, hlater⟩
  · exact absurd hown (hall k hlt)
  · constructor
    · intro heq l name hl hget hbegins
      obtain ⟨hlen, rfl⟩ := List.getElem?_eq_some_iff.mp hget
      exact hlater l (by omega) hlen ((matches_getElem h hlen).mpr hbegins)
    · intro hnone
      -- the last match is neither before nor behind the machine's own entry
      have hle : m ≤ k := by
        by_contra hgt
        exact hnone m names[m] (not_le.mp hgt) (List.getElem?_eq_getElem hm)
          ((matches_getElem h hm).mp hmatch)
      have hge : k ≤ m := by
        by_contra hgt
        exact hlater k (not_le.mp hgt) hlt hown
      rw [hid]
      push_cast
      omega

/-- No entry begins with an earlier one, so each machine finds its own. -/
lemma nodeId_of_pairwise (hpairwise : names.Pairwise fun name later => ¬name <+: later)
    (h : mem.Holds names) (hk : names[k]? = some ip.1) :
    nodeId ip names mem = some ((k : ℤ) + 1) := by
  rw [nodeId_eq_iff h hk]
  intro l name hl hname
  obtain ⟨hklt, hkname⟩ := List.getElem?_eq_some_iff.mp hk
  obtain ⟨hllt, rfl⟩ := List.getElem?_eq_some_iff.mp hname
  rw [← hkname]
  exact List.pairwise_iff_getElem.mp hpairwise k l hklt hllt hl

end NodeId

/-- It is what `read_host_config_file` sets for the entries of its file. -/
lemma nodeId_of_readHostConfigFile {ip : LocalIp} {file : Bytes} {u : Uninitialised}
    {r : Option Configuration} (h : readHostConfigFile ip file u = some r) :
    ∃ names mem, Listed (file.take 1024).length (u.text file) names ∧ mem.Holds names ∧
      r.map (·.localId) = nodeId ip names mem := by
  obtain ⟨names, hlisted⟩ := listed_of_readHostConfigFile h
  rw [readHostConfigFile_eq hlisted] at h
  obtain ⟨mem, hstore, rfl⟩ := Option.map_eq_some_iff.mp h
  exact ⟨names, mem, hlisted, HostMemory.holds_of_storeAll hstore, rfl⟩

/-- A memory that holds a host list. -/
lemma exists_holds (names : HostNames) : ∃ mem : HostMemory, mem.Holds names.1 := by
  have hblock : ∀ name ∈ names.1, ∃ block : Block, block.Holds name := by
    intro name hname
    obtain ⟨block, hblock⟩ := Option.isSome_iff_exists.mp
      (Block.write_isSome_iff.mpr (names.2.2 name hname).2 : (Block.write name (zeros 64)).isSome)
    exact ⟨block, Block.holds_of_write hblock⟩
  have hentry : ∀ k : ℕ, ∃ block : Block, ∀ name, names.1[k - 1]? = some name →
      block.Holds name := by
    intro k
    cases hk : names.1[k - 1]? with
    | none => exact ⟨zeros 64, fun name hname => by cases hname⟩
    | some name =>
        obtain ⟨block, hheld⟩ := hblock name (List.mem_of_getElem? hk)
        exact ⟨block, fun name' hname' => Option.some.inj hname' ▸ hheld⟩
  choose blocks hblocks using hentry
  exact ⟨⟨blocks, blocks⟩, fun k name hname => ⟨hblocks (k + 1) name hname,
    hblocks (k + 1) name hname⟩⟩

/-- **Node identity**: a machine of the list finds its own entry exactly when no later one
begins with its address; and all machines find their own, each another one, and the first is
the master, exactly when no entry begins with an earlier one. -/
theorem node_identity_iff (names : HostNames) :
    (∀ (ip : LocalIp) (mem : HostMemory), mem.Holds names.1 → ∀ k : ℕ,
      names.1[k]? = some ip.1 → (nodeId ip names mem = some ((k : ℤ) + 1) ↔
        ∀ l name, k < l → names.1[l]? = some name → ¬ip.1 <+: name)) ∧
    (NodeIdentity names ↔ names.1.Pairwise fun name later => ¬name <+: later) := by
  refine ⟨fun ip mem h k hk => nodeId_eq_iff h hk, ?_, ?_⟩
  · intro hidentity
    obtain ⟨mem, hheld⟩ := exists_holds names
    rw [List.pairwise_iff_getElem]
    intro i j hi hj hij
    -- the machine with the earlier address
    let ip : LocalIp := ⟨names.1[i], names.2.2 _ (List.getElem_mem hi)⟩
    have hget : names.1[i]? = some ip.1 := List.getElem?_eq_getElem hi
    exact (nodeId_eq_iff hheld hget).mp (hidentity.right ip mem hheld i hget) j _ hij
      (List.getElem?_eq_getElem hj)
  · intro hpairwise
    refine ⟨fun ip mem hheld k hk => nodeId_of_pairwise hpairwise hheld hk, ?_, ?_⟩
    · intro ip ip' mem mem' hheld hheld' hip hip' hne hsame
      obtain ⟨k, hk⟩ := List.mem_iff_getElem?.mp hip
      obtain ⟨k', hk'⟩ := List.mem_iff_getElem?.mp hip'
      rw [nodeId_of_pairwise hpairwise hheld hk, nodeId_of_pairwise hpairwise hheld' hk',
        Option.some.injEq] at hsame
      obtain rfl : k = k' := by omega
      exact hne (Subtype.ext (Option.some.inj (hk.symm.trans hk')))
    · intro ip mem hheld hip
      obtain ⟨k, hk⟩ := List.mem_iff_getElem?.mp hip
      rw [startsMaster, nodeId_of_pairwise hpairwise hheld hk, Option.some.injEq,
        List.head?_eq_getElem?]
      constructor
      · intro hone
        obtain rfl : k = 0 := by omega
        exact hk
      · intro hfirst
        obtain ⟨hklt, hkname⟩ := List.getElem?_eq_some_iff.mp hk
        obtain ⟨hlt, hname⟩ := List.getElem?_eq_some_iff.mp hfirst
        have hzero : k = 0 := names.2.1.getElem_inj_iff.mp (hkname.trans hname.symm)
        omega

/-- `10.0.0.1` and `10.0.0.12`. -/
def prefixNames : List Bytes := [address 1, address 1 ++ [50]]

lemma prefixNames_valid :
    prefixNames.Nodup ∧ ∀ name ∈ prefixNames, (0 : UInt8) ∉ name ∧ name.length < 64 := by
  decide

/-- The machine listed first takes itself for the second, and there is no master. -/
theorem prefix_address_not_right : ¬NodeIdentity prefixNames := by
  intro hidentity
  obtain ⟨mem, hheld⟩ := exists_holds ⟨prefixNames, prefixNames_valid⟩
  have hfirst : prefixNames[0]? = some firstIp.1 := rfl
  have hright := hidentity.right firstIp mem hheld 0 hfirst
  exact (nodeId_eq_iff hheld hfirst).mp hright 1 _ Nat.zero_lt_one rfl (by decide)

end Epbs
