/-
What a hosts file may contain so that the start of a node and its scheduler stay inside
their arrays.

* `NodeInBounds`: the accesses for one node;
* `HandledInBounds`: the file is read inside the blocks and the arrays, and so is every
  later access for a node that is configured;
* `EntriesFit`: how many entries there may be, and how long they may be;
* `handledInBounds_iff`: these are the files that are handled inside the arrays.
-/
import Epbs.Startup.HostFile

namespace Epbs

open Words Strings

/-- **The accesses for the node `i`**: `pcstat[i]` and `nodesstat[i]` in `job_queue_pop`, and
`hostq[i]` and `ips[i]` in `hostq_init`, with the copy of the address. -/
structure NodeInBounds (i : ℕ) (mem : HostMemory) : Prop where
  pcstat : inTable maxNumHosts i
  nodesstat : inTable maxNumHosts i
  hostq : inTable (maxNumHosts + 1) i
  ips : inTable (maxNumHosts + 1) i
  copy : (copyIp (mem.ips i)).isSome

/-- **A hosts file is handled within bounds**: `read_host_config_file` exits or returns, and
if it returns there is a node, and every access for a node is in bounds. -/
def HandledInBounds (ip : LocalIp) (file : Bytes) (u : Uninitialised) : Prop :=
  ∃ r, readHostConfigFile ip file u = some r ∧ ∀ c ∈ r,
    1 ≤ c.numHosts ∧ ∀ i, 1 ≤ i → i ≤ c.numHosts → NodeInBounds i c.mem

/-- At most `MAX_NUM_HOSTS` entries of at most 63 bytes; and where the local address is
listed, fewer than `MAX_NUM_HOSTS` of at most 32 bytes. -/
def EntriesFit (ip : LocalIp) (nbytes : ℤ) (text : Bytes) : Prop :=
  ∃ names, Listed nbytes text names ∧ names.length ≤ maxNumHosts ∧
    (∀ name ∈ names, name.length < 64) ∧
    ((∃ name ∈ names, ip.1 <+: name) →
      names.length < maxNumHosts ∧ ∀ name ∈ names, name.length ≤ 32)

/-- The nodes with a name are in bounds exactly when they are few and their names are short. -/
lemma nodesInBounds_iff {names : List Bytes} {mem : HostMemory} (h : mem.Holds names)
    (hnames : ∀ name ∈ names, (0 : UInt8) ∉ name) (hne : names ≠ []) :
    (∀ i, 1 ≤ i → i ≤ names.length → NodeInBounds i mem) ↔
      names.length < maxNumHosts ∧ ∀ name ∈ names, name.length ≤ 32 := by
  have hpos := List.length_pos_iff.mpr hne
  constructor
  · intro hall
    refine ⟨by exact_mod_cast (hall names.length hpos le_rfl).pcstat.2, fun name hname => ?_⟩
    obtain ⟨k, hk, rfl⟩ := List.mem_iff_getElem.mp hname
    have hcopy := (hall (k + 1) (by omega) hk).copy
    exact (copyIp_isSome_iff (h k _ (List.getElem?_eq_getElem hk)).2 (hnames _ hname)).mp hcopy
  · rintro ⟨hfew, hshort⟩ i hlow hhigh
    obtain ⟨k, rfl⟩ := Nat.exists_eq_succ_of_ne_zero (by omega : i ≠ 0)
    have hk : k < names.length := hhigh
    have hin : inTable maxNumHosts (k + 1 : ℕ) :=
      ⟨Int.natCast_nonneg _, by exact_mod_cast (hhigh.trans_lt hfew)⟩
    have hin' : inTable (maxNumHosts + 1) (k + 1 : ℕ) :=
      ⟨hin.1, hin.2.trans (by exact_mod_cast Nat.lt_succ_self _)⟩
    have hname := List.getElem_mem hk
    exact ⟨hin, hin, hin', hin',
      (copyIp_isSome_iff (h k _ (List.getElem?_eq_getElem hk)).2 (hnames _ hname)).mpr
        (hshort _ hname)⟩

/-- What the property says once the entries are stored. -/
lemma configured_inBounds_iff {ip : LocalIp} {names : List Bytes} {mem : HostMemory}
    (h : mem.Holds names) (hnames : ∀ name ∈ names, (0 : UInt8) ∉ name) :
    (∀ c ∈ configured ip names mem, 1 ≤ c.numHosts ∧
      ∀ i, 1 ≤ i → i ≤ c.numHosts → NodeInBounds i c.mem) ↔
    ((∃ name ∈ names, ip.1 <+: name) →
      names.length < maxNumHosts ∧ ∀ name ∈ names, name.length ≤ 32) := by
  rw [configured]
  split_ifs with hid
  · have hnone := (localIdOf_eq_neg_one_iff h).mp hid
    exact iff_of_true (fun c hc => by cases hc)
      fun ⟨name, hname, hbegins⟩ => absurd hbegins (hnone name hname)
  · have hfound : ∃ name ∈ names, ip.1 <+: name := (localIdOf_ne_neg_one_iff h).mp hid
    have hne : names ≠ [] := by
      rintro rfl
      obtain ⟨name, hname, -⟩ := hfound
      cases hname
    simp only [Option.mem_some_iff, forall_eq', hfound, true_imp_iff,
      nodesInBounds_iff h hnames hne]
    exact and_iff_right (List.length_pos_iff.mpr hne)

/-- **A hosts file is handled within bounds** exactly when its entries fit. -/
theorem handledInBounds_iff (ip : LocalIp) (file : Bytes) (u : Uninitialised) :
    HandledInBounds ip file u ↔ EntriesFit ip (file.take 1024).length (u.text file) := by
  constructor
  · rintro ⟨r, hread, hr⟩
    obtain ⟨names, hlisted⟩ := listed_of_readHostConfigFile hread
    rw [readHostConfigFile_eq hlisted] at hread
    obtain ⟨mem, hstore, rfl⟩ := Option.map_eq_some_iff.mp hread
    obtain ⟨hcount, hlen⟩ := HostMemory.exists_storeAll_iff.mp ⟨mem, hstore⟩
    exact ⟨names, hlisted, hcount, hlen,
      (configured_inBounds_iff (HostMemory.holds_of_storeAll hstore) hlisted.nul_free).mp hr⟩
  · rintro ⟨names, hlisted, hcount, hlen, hfits⟩
    obtain ⟨mem, hstore⟩ : ∃ mem, u.blocks.storeAll 1 names = some mem :=
      HostMemory.exists_storeAll_iff.mpr ⟨hcount, hlen⟩
    refine ⟨configured ip names mem, ?_,
      (configured_inBounds_iff (HostMemory.holds_of_storeAll hstore) hlisted.nul_free).mpr hfits⟩
    rw [readHostConfigFile_eq hlisted, hstore, Option.map_some]

/-! ### A file of five hosts -/

/-- A file of entries with nothing between them. -/
def hostsFile (names : List Bytes) : Bytes :=
  names.flatMap fun name => hostTag ++ (name ++ hostEndTag)

/-- `10.0.0.n`, for a digit. -/
def address (n : UInt8) : Bytes := [49, 48, 46, 48, 46, 48, 46, 48 + n]

lemma address_one : (0 : UInt8) ∉ address 1 ∧ (address 1).length < 64 := by decide

/-- The address `10.0.0.1`. -/
def firstIp : LocalIp := ⟨address 1, address_one⟩

/-- A memory of zeros. -/
def zeroMemory : Uninitialised := ⟨zeros 1024, fun _ => zeros 64, fun _ => zeros 64⟩

/-- `MAX_NUM_HOSTS` hosts are accepted, and the last one is outside of `pcstat`. -/
theorem five_hosts_not_in_bounds :
    ¬HandledInBounds firstIp (hostsFile ([1, 2, 3, 4, 5].map address)) zeroMemory := by
  have hread : (readHostConfigFile firstIp (hostsFile ([1, 2, 3, 4, 5].map address))
      zeroMemory).map (fun r => r.map (·.numHosts)) = some (some 5) := by
    decide +kernel
  rintro ⟨r, hr, hall⟩
  rw [hr, Option.map_some, Option.some.injEq] at hread
  obtain ⟨c, rfl, hfive⟩ := Option.map_eq_some_iff.mp hread
  have hnode := (hall c rfl).2 5 (by norm_num) hfive.ge
  exact absurd hnode.pcstat (by decide)

end Epbs
