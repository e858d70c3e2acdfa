/-
A hosts file as it is meant to be written, and the list that the loop of
`read_host_config_file` makes of it.

* `HostName`, `Gap`: a name between the tags, and the text around the entries;
* `hostsText`: a file of entries;
* `listed_hostsText`: the entries of such a text are its names, whatever count is left for
  the text around them;
* `hosts_parser_recovers`: the loop stores the names in order.
-/
import Epbs.Startup.Bounds

namespace Epbs

open Words Strings

/-- A name between the tags. It fits the buffer of 64 bytes with its NUL, and the first end tag
behind it is its own. -/
structure HostName where
  name : Bytes
  nonempty : name ≠ []
  nul_free : (0 : UInt8) ∉ name
  fits : name.length ≤ 63
  plain : ¬hostEndTag <:+: name

/-- The text before, between and after the entries: anything in which no entry begins, also the
whitespace and the other tags of a real file. -/
structure Gap where
  text : Bytes
  nul_free : (0 : UInt8) ∉ text
  plain : ¬hostTag <:+: text

/-- Entries, each with the text behind it. -/
def entriesText (entries : List (HostName × Gap)) : Bytes :=
  entries.flatMap fun e => hostTag ++ (e.1.name ++ (hostEndTag ++ e.2.text))

/-- **A hosts file.** -/
def hostsText (lead : Gap) (entries : List (HostName × Gap)) : Bytes :=
  lead.text ++ entriesText entries

/-- The names of the entries. -/
def namesOf (entries : List (HostName × Gap)) : List Bytes := entries.map (·.1.name)

lemma entriesText_cons (name : HostName) (gap : Gap) (entries : List (HostName × Gap)) :
    entriesText ((name, gap) :: entries) =
      hostTag ++ (name.name ++ (hostEndTag ++ hostsText gap entries)) := by
  simp only [entriesText, hostsText, List.flatMap_cons, List.append_assoc]

/-- **The entries of a hosts file** in front of a NUL are its names: a count of all its bytes
is never used up before the last of them. -/
lemma listed_hostsText (lead : Gap) (entries : List (HostName × Gap)) {nbytes : ℤ}
    (hcount : (hostsText lead entries).length ≤ nbytes) (rest : Bytes) :
    Listed nbytes (hostsText lead entries ++ 0 :: rest) (namesOf entries) := by
  induction entries generalizing lead nbytes with
  | nil =>
      rw [hostsText, entriesText, List.flatMap_nil, List.append_nil]
      rcases le_or_gt nbytes 13 with hle | hlt
      · exact .counted hle
      · exact .noTag hlt (strstr_append_nul (by decide) lead.nul_free lead.plain rest)
  | cons e entries ih =>
      obtain ⟨name, gap⟩ := e
      let behind := hostsText gap entries ++ 0 :: rest
      have htext : hostsText lead ((name, gap) :: entries) ++ 0 :: rest =
          lead.text ++ (hostTag ++ (name.name ++ (hostEndTag ++ behind))) := by
        simp only [hostsText, entriesText_cons, behind, List.append_assoc]
      have hpos : 0 < name.name.length := List.length_pos_iff.mpr name.nonempty
      have hlen : (hostsText lead ((name, gap) :: entries)).length =
          lead.text.length + (name.name.length + 13 + (hostsText gap entries).length) := by
        rw [hostsText, entriesText_cons]
        simp only [List.length_append, hostTag, hostEndTag, List.length_cons, List.length_nil]
        omega
      have htag : strstr hostTag (lead.text ++ (hostTag ++ (name.name ++ (hostEndTag ++ behind)))) =
          some (some (lead.text, hostTag ++ (name.name ++ (hostEndTag ++ behind)))) :=
        strstr_append_needle (by decide) lead.nul_free lead.plain _
      have hend : strstr hostEndTag ((hostTag ++ (name.name ++ (hostEndTag ++ behind))).drop 6) =
          some (some (name.name, hostEndTag ++ behind)) :=
        strstr_append_needle (by decide) name.nul_free name.plain _
      rw [htext]
      show Listed nbytes _ (name.name :: namesOf entries)
      exact .entry (by omega) htag hend (ih gap (by omega))

/-- A file that leaves room in a buffer of NULs is followed by one. -/
lemma text_of_nul {file : Bytes} (u : Uninitialised) (hlen : file.length < 1024)
    (hnul : ∀ b ∈ u.rbuffer.1.drop file.length, b = 0) :
    ∃ rest, u.text file = file ++ 0 :: rest := by
  have hne : u.rbuffer.1.drop file.length ≠ [] := by
    rw [← List.length_pos_iff, List.length_drop, u.rbuffer.2]
    omega
  obtain ⟨b, rest, hrest⟩ := List.exists_cons_of_ne_nil hne
  refine ⟨rest, ?_⟩
  rw [Uninitialised.text, List.take_of_length_le hlen.le, hrest,
    hnul b (hrest ▸ List.mem_cons_self)]

/-- **The hosts parser recovers the host list** from every file of at most `MAX_NUM_HOSTS`
entries which leaves room in `rbuffer`, the rest of it being NUL: the loop ends with their
number, and the names are in the arrays in order. -/
theorem hosts_parser_recovers (lead : Gap) (entries : List (HostName × Gap)) (u : Uninitialised)
    (hfew : entries.length ≤ maxNumHosts) (hlen : (hostsText lead entries).length < 1024)
    (hnul : ∀ b ∈ u.rbuffer.1.drop (hostsText lead entries).length, b = 0) :
    ∃ mem, readEntries ((u.text (hostsText lead entries)).length + 1) 1
        ((hostsText lead entries).take 1024).length (u.text (hostsText lead entries)) u.blocks =
          some (entries.length + 1, mem) ∧
      (∀ i name, (namesOf entries)[i]? = some name →
        cstrAt (mem.hosts (i + 1)).1 0 = some name ∧ cstrAt (mem.ips (i + 1)).1 0 = some name) ∧
      ∀ ip, readHostConfigFile ip (hostsText lead entries) u =
        some (configured ip (namesOf entries) mem) := by
  obtain ⟨rest, htext⟩ := text_of_nul u hlen hnul
  have htake : (hostsText lead entries).take 1024 = hostsText lead entries :=
    List.take_of_length_le hlen.le
  have hcount : (namesOf entries).length = entries.length := List.length_map _
  have hlisted : Listed (hostsText lead entries).length (u.text (hostsText lead entries))
      (namesOf entries) := htext ▸ listed_hostsText lead entries le_rfl rest
  have hshort : ∀ name ∈ namesOf entries, name.length < 64 := by
    intro name hname
    obtain ⟨e, -, rfl⟩ := List.mem_map.mp hname
    exact Nat.lt_succ_of_le e.1.fits
  obtain ⟨mem, hstore⟩ : ∃ mem, u.blocks.storeAll 1 (namesOf entries) = some mem :=
    HostMemory.exists_storeAll_iff.mpr ⟨hcount ▸ hfew, hshort⟩
  have hholds := HostMemory.holds_of_storeAll hstore
  refine ⟨mem, ?_, fun i name hname => ?_, fun ip => ?_⟩
  · rw [htake, readEntries_eq hlisted (Nat.lt_succ_self _), hstore, hcount, add_comm 1]
    rfl
  · have hname_nul := hlisted.nul_free name (List.mem_of_getElem? hname)
    obtain ⟨hhost, hip⟩ := hholds i name hname
    exact ⟨hhost.cstrAt_eq hname_nul, hip.cstrAt_eq hname_nul⟩
  · rw [readHostConfigFile_eq (by rwa [htake]), hstore, Option.map_some]

lemma address_plain : ∀ n ∈ ([1, 2] : List UInt8),
    address n ≠ [] ∧ (0 : UInt8) ∉ address n ∧ (address n).length ≤ 63 ∧
      ¬hostEndTag <:+: address n := by
  decide +kernel

/-- The hosts `10.0.0.1` and `10.0.0.2`. -/
def addressed (n : UInt8) (hn : n ∈ ([1, 2] : List UInt8)) : HostName where
  name := address n
  nonempty := (address_plain n hn).1
  nul_free := (address_plain n hn).2.1
  fits := (address_plain n hn).2.2.1
  plain := (address_plain n hn).2.2.2

/-- A heading `hosts` on a line of its own. -/
def heading : Gap := ⟨[104, 111, 115, 116, 115, 10], by decide, by decide⟩

/-- The end of a line, and two blanks on the next. -/
def indent : Gap := ⟨[10, 32, 32], by decide, by decide⟩

/-- Two hosts in a file, each on its line under the heading. -/
def twoEntries : List (HostName × Gap) :=
  [(addressed 1 (by decide), indent), (addressed 2 (by decide), indent)]

/-- Both names of the file are read, in a buffer of zeros. -/
theorem hosts_parser_recovers_two :
    ∃ mem, readEntries ((zeroMemory.text (hostsText heading twoEntries)).length + 1) 1
        ((hostsText heading twoEntries).take 1024).length
        (zeroMemory.text (hostsText heading twoEntries)) zeroMemory.blocks = some (3, mem) ∧
      (∀ i name, [address 1, address 2][i]? = some name →
        cstrAt (mem.hosts (i + 1)).1 0 = some name ∧ cstrAt (mem.ips (i + 1)).1 0 = some name) ∧
      ∀ ip, readHostConfigFile ip (hostsText heading twoEntries) zeroMemory =
        some (configured ip [address 1, address 2] mem) :=
  hosts_parser_recovers heading twoEntries zeroMemory (by decide) (by decide)
    fun _ hb => List.eq_of_mem_replicate (List.mem_of_mem_drop hb)

end Epbs
