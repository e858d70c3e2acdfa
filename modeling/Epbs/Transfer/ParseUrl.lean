/-
`CNetAux::ParseURL`: the host, the port and the path of a URL.

* `trim`, `rewritten`, `hostAndPath`, `portOf`, `cutPort`: the steps, and `parseURL`: `none` for
  an exception or undefined behaviour, `some none` for a text without `http://`;
* `UrlParts`: a URL in its parts, and `Recovered`: they are what is parsed;
* `hostAndPath_eq_iff`, `portText_append`, `portOf_of_port`, `cutPort_colon_iff`: when the steps
  find the parts;
* `parse_url_recovers_iff`: the URLs whose parts are recovered, and `clear_iff`: below 2 GiB
  they are those where no `:` in the path is taken for one before a port.
-/
import Epbs.Machine.Text
import Epbs.Server.Tables
import Mathlib.Data.List.DropRight

namespace Epbs

open Text

/-! ### `ParseURL` -/

/-- `' '`. -/
def space : UInt8 := 32

/-- `'/'`. -/
def slash : UInt8 := 47

/-- `':'`. -/
def colon : UInt8 := 58

/-- `'\\'`. -/
def backslash : UInt8 := 92

/-- `"http://"`. -/
def httpPrefix : Bytes := [104, 116, 116, 112, 58, 47, 47]

/-- The spaces at both ends are erased; a text of spaces only has no end to erase up to. -/
def trim (url : Bytes) : Option Bytes :=
  if url.all (· = space) then none
  else some ((url.dropWhile (· = space)).rdropWhile (· = space))

/-- `\` becomes `/`, and a space becomes `%20`. -/
def rewritten (tmp : Bytes) : Bytes :=
  tmp.flatMap fun b =>
    if b = backslash then [slash] else if b = space then [37, 50, 48] else [b]

/-- `hostName` and `remotepath`, before the port is cut off. -/
def hostAndPath (newurl : Bytes) : Option (Bytes × Bytes) :=
  let pos := find newurl slash 8
  if pos ≠ -1 then do
    let n ← checked (pos - 7)
    let hostName ← substrLen newurl 7 n
    let remotepath ← substr newurl pos
    return (hostName, remotepath)
  else (substr newurl 7).map fun hostName => (hostName, [slash])

/-- The text of the port, behind the `:` at `pos` and up to the next `/`. -/
def portText (newurl : Bytes) (pos : ℤ) : Option Bytes := do
  let pos ← checked (pos + 1)
  let pos1 := find newurl slash pos
  if pos1 = -1 then substr newurl pos
  else do
    let n ← checked (pos1 - pos)
    substrLen newurl pos n

/-- The text without white space as an `unsigned short`. -/
def readPort (port : Bytes) : ℤ := atoi (port.filter fun b => !isSpace b) % 65536

/-- `uPort`. -/
def portOf (newurl : Bytes) : Option ℤ :=
  let pos := find newurl colon 8
  if pos ≠ -1 then (portText newurl pos).map readPort else some 80

/-- `hostName` up to the `:`. -/
def cutPort (hostName : Bytes) : Option Bytes :=
  let pos := find hostName colon 0
  if pos ≠ -1 then substrLen hostName 0 pos else some hostName

/-- What is parsed. -/
structure ParsedUrl where
  hostName : Bytes
  uPort : ℤ
  remotepath : Bytes
  deriving DecidableEq

/-- `ParseURL` of the rewritten text. -/
def parseNewurl (newurl : Bytes) : Option (Option ParsedUrl) :=
  if newurl.take 7 = httpPrefix then do
    let (hostName, remotepath) ← hostAndPath newurl
    let uPort ← portOf newurl
    let hostName ← cutPort hostName
    return some ⟨hostName, uPort, remotepath⟩
  else some none

/-- **`ParseURL`.** -/
def parseURL (url : Bytes) : Option (Option ParsedUrl) :=
  (trim url).bind fun tmp => parseNewurl (rewritten tmp)

/-! ### A URL in its parts -/

/-- A host, and a port and a path where they are given. -/
structure UrlParts where
  host : Bytes
  port : Option (Fin 65536)
  path : Option Bytes
  host_ne : host ≠ []
  host_plain : ∀ b ∈ host, b ≠ colon ∧ b ≠ slash ∧ b ≠ backslash ∧ b ≠ space
  path_plain : ∀ r ∈ path, ∀ b ∈ r, b ≠ space ∧ b ≠ backslash

namespace UrlParts

/-- `":" P`, if a port is given. -/
def portPart (u : UrlParts) : Bytes := u.port.elim [] fun p => colon :: decimal p

/-- `"/" R`, if a path is given. -/
def pathPart (u : UrlParts) : Bytes := u.path.elim [] fun r => slash :: r

/-- What is between `http://` and the path. -/
def authority (u : UrlParts) : Bytes := u.host ++ u.portPart

/-- The URL. -/
def url (u : UrlParts) : Bytes := httpPrefix ++ (u.authority ++ u.pathPart)

/-- The URL between spaces. -/
def padded (u : UrlParts) (before after : ℕ) : Bytes :=
  List.replicate before space ++ u.url ++ List.replicate after space

/-- What should be parsed. -/
def parsed (u : UrlParts) : ParsedUrl :=
  ⟨u.host, u.port.elim 80 fun p => (p : ℕ), u.path.elim [slash] fun r => slash :: r⟩

/-- **The parts are recovered.** -/
def Recovered (u : UrlParts) (before after : ℕ) : Prop :=
  parseURL (u.padded before after) = some (some u.parsed)

/-- Where the path begins. -/
def pathAt (u : UrlParts) : ℕ := 7 + u.authority.length

/-- Where the text of the port begins. -/
def portAt (u : UrlParts) : ℕ := 8 + u.host.length

/-- The text behind a `:` at `pos`, if one was found, reads as 80. -/
def ReadsAs80 (newurl : Bytes) (pos : ℤ) : Prop :=
  pos = -1 ∨ (portText newurl pos).map readPort = some 80

/-- The path and the port begin at positions that are `int`s, and without a port the first `:`
in the path, if there is one, comes before a text that reads as 80. -/
structure Clear (u : UrlParts) : Prop where
  path : u.path.isSome → u.pathAt < 2147483648
  port : u.port.isSome → u.portAt < 2147483648
  colon : u.port = none → ∀ r ∈ u.path, ∀ before after, r = before ++ colon :: after →
    colon ∉ before → ReadsAs80 u.url (asInt (u.pathAt + 1 + before.length))

end UrlParts

/-! ### The steps -/

section Steps

lemma dropWhile_spaces {s : Bytes} (h : ∀ b ∈ s.head?, b ≠ space) (n : ℕ) :
    (List.replicate n space ++ s).dropWhile (· = space) = s := by
  rw [List.dropWhile_append_of_pos fun b hb => decide_eq_true (List.eq_of_mem_replicate hb)]
  cases s with
  | nil => rfl
  | cons b bs =>
      rw [List.dropWhile_cons_of_neg]
      rw [decide_eq_true_iff]
      exact h b rfl

/-- The spaces around a text are trimmed. -/
lemma trim_pad {s : Bytes} (hne : s ≠ []) (h : space ∉ s) (before after : ℕ) :
    trim (List.replicate before space ++ s ++ List.replicate after space) = some s := by
  have hmem : ∀ b ∈ s, b ≠ space := fun b hb heq => h (heq ▸ hb)
  have hleft : (List.replicate before space ++ s ++ List.replicate after space).dropWhile
      (· = space) = s ++ List.replicate after space := by
    rw [List.append_assoc, dropWhile_spaces]
    intro b hb
    rw [List.head?_append_of_ne_nil _ hne] at hb
    exact hmem b (List.mem_of_mem_head? hb)
  have hright : (s ++ List.replicate after space).rdropWhile (· = space) = s := by
    rw [List.rdropWhile, List.reverse_append, List.reverse_replicate, dropWhile_spaces,
      List.reverse_reverse]
    exact fun b hb => hmem b (List.mem_reverse.mp (List.mem_of_mem_head? hb))
  obtain ⟨b, hb⟩ := List.exists_mem_of_ne_nil s hne
  have hall : ¬(List.replicate before space ++ s ++ List.replicate after space).all
      (· = space) = true := by
    intro hall
    have hspace := List.all_eq_true.mp hall b
      (List.mem_append_left _ (List.mem_append_right _ hb))
    exact hmem b hb (of_decide_eq_true hspace)
  rw [trim, if_neg hall, hleft, hright]

/-- A text without spaces and backslashes stays. -/
lemma rewritten_eq {tmp : Bytes} (h : ∀ b ∈ tmp, b ≠ space ∧ b ≠ backslash) :
    rewritten tmp = tmp := by
  induction tmp with
  | nil => rfl
  | cons b bs ih =>
      rw [List.forall_mem_cons] at h
      rw [rewritten, List.flatMap_cons, if_neg h.1.2, if_neg h.1.1, ← rewritten, ih h.2,
        List.singleton_append]

/-- A host without a port stays. -/
lemma cutPort_of_not_mem {s : Bytes} (h : colon ∉ s) : cutPort s = some s := by
  rw [cutPort, find_of_not_mem (by rwa [Int.toNat_zero, List.drop_zero]), if_neg (not_not.mpr rfl)]

/-- **A port is cut off** if its `:` is at a position that is an `int`. -/
lemma cutPort_colon_iff {s rest : Bytes} (h : colon ∉ s) :
    cutPort (s ++ colon :: rest) = some s ↔ s.length < 2147483648 := by
  have hfind : find (s ++ colon :: rest) colon 0 = asInt s.length :=
    find_append le_rfl (Int.natCast_nonneg _) (by rwa [Int.toNat_zero, List.drop_zero])
  have hlen : (s ++ colon :: rest).length = s.length + (rest.length + 1) := by
    rw [List.length_append, List.length_cons]
  rw [cutPort, hfind, substrLen_zero]
  constructor
  · intro hcut
    by_contra hlong
    -- what is left is longer or shorter than the host
    have hpos := (asInt_bounds s.length).2
    have hkept := congrArg List.length (Option.some.inj ((apply_ite some _ _ _).trans hcut))
    split_ifs at hkept with hfound hneg
    · omega
    · rw [List.length_take] at hkept
      omega
    · omega
  · intro hshort
    rw [asInt_of_lt hshort, if_pos (by omega), if_neg (by omega), Int.toNat_natCast,
      List.take_left]

/-- A separator is looked for from the second byte of the host on. -/
lemma find_behind_http {c : UInt8} {s rest : Bytes} (hne : s ≠ []) (h : c ∉ s) :
    find ((httpPrefix ++ s) ++ c :: rest) c 8 = asInt (7 + s.length) := by
  have hpos := List.length_pos_iff.mpr hne
  have hlen : (httpPrefix ++ s).length = 7 + s.length := List.length_append
  have hdrop : c ∉ (httpPrefix ++ s).drop (8 : ℤ).toNat := fun hmem =>
    h (List.mem_of_mem_drop (i := 1) hmem)
  rw [find_append (by norm_num) (by omega) hdrop, hlen]

lemma find_behind_http_none {c : UInt8} {s : Bytes} (h : c ∉ s) :
    find (httpPrefix ++ s) c 8 = -1 :=
  find_of_not_mem fun hmem => h (List.mem_of_mem_drop (i := 1) hmem)

/-- **The text of a port**, when its ends are at positions that are `int`s. -/
lemma portText_append {before text rest : Bytes} (htext : slash ∉ text)
    (hrest : ∀ b ∈ rest.head?, b = slash) (hbegin : before.length + 1 < 2147483648)
    (hend : rest ≠ [] → before.length + 1 + text.length < 2147483648) :
    portText (before ++ colon :: (text ++ rest)) before.length = some text := by
  have hsplit : before ++ colon :: (text ++ rest) = (before ++ [colon]) ++ (text ++ rest) := by
    rw [List.append_assoc, List.singleton_append]
  have hlen : (before ++ [colon]).length = before.length + 1 := List.length_append
  have hnext : (before.length : ℤ) + 1 = (before ++ [colon]).length := by
    rw [hlen, Nat.cast_add, Nat.cast_one]
  have hdrop : ((before ++ [colon]) ++ text).drop (before ++ [colon]).length = text :=
    List.drop_left
  rw [portText, checked_eq_some (by omega) (by omega), Option.bind_eq_bind, Option.bind_some,
    hsplit, hnext]
  cases rest with
  | nil =>
      rw [List.append_nil, find_of_not_mem (by rwa [Int.toNat_natCast, hdrop]), if_pos rfl,
        substr_append]
  | cons b bs =>
      cases hrest b rfl
      have hpos := hend (List.cons_ne_nil _ _)
      have htotal : ((before ++ [colon]) ++ text).length = before.length + 1 + text.length := by
        rw [List.length_append, hlen]
      have hfind : find ((before ++ [colon]) ++ (text ++ slash :: bs)) slash
          (before ++ [colon]).length = (before.length + 1 + text.length : ℕ) := by
        rw [← List.append_assoc, find_append (Int.natCast_nonneg _) (by omega)
          (by rwa [Int.toNat_natCast, hdrop]), htotal, asInt_of_lt hpos]
      have hleft : ((before.length + 1 + text.length : ℕ) : ℤ) - (before ++ [colon]).length =
          text.length := by
        rw [hlen]
        omega
      rw [hfind, if_neg (by omega), hleft, checked_eq_some (by omega) (by omega),
        Option.bind_some, substrLen_append]

/-- Behind a position that is not an `int` there is nothing to read. -/
lemma portText_eq_none {newurl : Bytes} {pos : ℤ} (h : pos < -1 ∨ pos + 1 = 2147483648) :
    portText newurl pos = none := by
  rw [portText, checked]
  split_ifs with hint
  · rw [Option.bind_eq_bind, Option.bind_some, find_of_neg (by omega), if_pos rfl,
      substr_of_neg (by omega)]
  · rfl

/-- A decimal number is read. -/
lemma readPort_decimal (p : Fin 65536) : readPort (decimal p) = (p : ℕ) := by
  have hp := p.2
  rw [readPort, List.filter_eq_self.mpr fun b hb => by rw [(mem_decimal hb).1]; rfl,
    atoi_decimal (by omega)]
  omega

/-- What is parsed, if nothing stops it. -/
lemma parseNewurl_eq_iff {newurl : Bytes} (hhttp : newurl.take 7 = httpPrefix)
    {parsed : ParsedUrl} :
    parseNewurl newurl = some (some parsed) ↔ ∃ hostName,
      hostAndPath newurl = some (hostName, parsed.remotepath) ∧
        portOf newurl = some parsed.uPort ∧ cutPort hostName = some parsed.hostName := by
  obtain ⟨host, port, path⟩ := parsed
  rw [parseNewurl, if_pos hhttp]
  simp only [Option.bind_eq_bind, Option.bind_eq_some_iff, Option.pure_def, Option.some.injEq,
    ParsedUrl.mk.injEq, Prod.exists]
  constructor
  · rintro ⟨hostName, path', hsplit, port', hport, host', hcut, rfl, rfl, rfl⟩
    exact ⟨hostName, hsplit, hport, hcut⟩
  · rintro ⟨hostName, hsplit, hport, hcut⟩
    exact ⟨hostName, path, hsplit, port, hport, host, hcut, rfl, rfl, rfl⟩

end Steps

/-! ### The parts -/

namespace UrlParts

variable {u : UrlParts}

lemma colon_not_mem_host (u : UrlParts) : colon ∉ u.host := fun h => (u.host_plain _ h).1 rfl

lemma slash_not_mem_host (u : UrlParts) : slash ∉ u.host := fun h => (u.host_plain _ h).2.1 rfl

/-- The digits of a port are no separators. -/
lemma not_mem_decimal {b : UInt8} (hb : b < 48 ∨ 57 < b) (n : ℕ) : b ∉ decimal n := by
  intro h
  obtain ⟨-, hlow, hhigh⟩ := mem_decimal h
  rcases hb with hb | hb
  · exact UInt8.not_lt.mpr hlow hb
  · exact UInt8.not_lt.mpr hhigh hb

lemma not_mem_portPart {b : UInt8} (hb : b < 48 ∨ 57 < b) (hcolon : b ≠ colon) (u : UrlParts) :
    b ∉ u.portPart := by
  rw [portPart]
  cases u.port with
  | none => exact List.not_mem_nil
  | some p => exact List.not_mem_cons_of_ne_of_not_mem hcolon (not_mem_decimal hb p)

lemma slash_not_mem_authority (u : UrlParts) : slash ∉ u.authority := by
  rw [authority, List.mem_append, not_or]
  exact ⟨u.slash_not_mem_host, not_mem_portPart (.inl (by decide)) (by decide) u⟩

lemma plain_pathPart (u : UrlParts) : ∀ b ∈ u.pathPart, b ≠ space ∧ b ≠ backslash := by
  rw [pathPart]
  cases hpath : u.path with
  | none => exact fun b hb => absurd hb List.not_mem_nil
  | some r => exact List.forall_mem_cons.mpr ⟨by decide, u.path_plain r hpath⟩

lemma plain_httpPrefix : ∀ b ∈ httpPrefix, b ≠ space ∧ b ≠ backslash := by
  simp [httpPrefix, space, backslash]

/-- There are no spaces and no backslashes in the URL. -/
lemma plain_url (u : UrlParts) : ∀ b ∈ u.url, b ≠ space ∧ b ≠ backslash := by
  rw [url, authority, List.forall_mem_append, List.forall_mem_append, List.forall_mem_append]
  refine ⟨plain_httpPrefix, ⟨fun b hb => ?_, fun b hb => ?_⟩, u.plain_pathPart⟩
  · exact ⟨(u.host_plain b hb).2.2.2, (u.host_plain b hb).2.2.1⟩
  · constructor
    · rintro rfl
      exact not_mem_portPart (.inl (by decide)) (by decide) u hb
    · rintro rfl
      exact not_mem_portPart (.inr (by decide)) (by decide) u hb

/-- What the URL in its spaces is parsed to. -/
lemma recovered_iff (u : UrlParts) (before after : ℕ) :
    u.Recovered before after ↔ ∃ hostName,
      hostAndPath u.url = some (hostName, u.parsed.remotepath) ∧
        portOf u.url = some u.parsed.uPort ∧ cutPort hostName = some u.host := by
  have hne : u.url ≠ [] := List.cons_ne_nil _ _
  rw [Recovered, parseURL, padded, trim_pad hne fun h => (u.plain_url _ h).1 rfl,
    Option.bind_some, rewritten_eq u.plain_url]
  exact parseNewurl_eq_iff rfl

/-! ### The host and the path -/

lemma url_of_no_path (hpath : u.path = none) : u.url = httpPrefix ++ u.authority := by
  rw [url, pathPart, hpath, Option.elim_none, List.append_nil]

lemma url_of_path {r : Bytes} (hpath : u.path = some r) :
    u.url = (httpPrefix ++ u.authority) ++ slash :: r := by
  rw [url, pathPart, hpath, Option.elim_some, List.append_assoc]

lemma length_before_path (u : UrlParts) : (httpPrefix ++ u.authority).length = u.pathAt :=
  List.length_append

lemma authority_ne (u : UrlParts) : u.authority ≠ [] :=
  List.append_ne_nil_of_left_ne_nil u.host_ne _

lemma hostAndPath_of_no_path (hpath : u.path = none) :
    hostAndPath u.url = some (u.authority, [slash]) := by
  have hsubstr : substr u.url 7 = some u.authority := by
    rw [url_of_no_path hpath]
    exact substr_append httpPrefix u.authority
  have hfind : find u.url slash 8 = -1 := by
    rw [url_of_no_path hpath]
    exact find_behind_http_none u.slash_not_mem_authority
  rw [hostAndPath, hfind, if_neg (not_not.mpr rfl), hsubstr, Option.map_some]

lemma find_slash {r : Bytes} (hpath : u.path = some r) :
    find u.url slash 8 = asInt u.pathAt := by
  rw [url_of_path hpath, find_behind_http u.authority_ne u.slash_not_mem_authority, pathAt]

/-- The path begins at a position that is an `int`. -/
lemma hostAndPath_of_path {r : Bytes} (hpath : u.path = some r)
    (hshort : u.pathAt < 2147483648) :
    hostAndPath u.url = some (u.authority, slash :: r) := by
  have hhost : substrLen u.url 7 u.authority.length = some u.authority := by
    rw [url_of_path hpath, List.append_assoc]
    exact substrLen_append httpPrefix u.authority (slash :: r)
  have hrest : substr u.url u.pathAt = some (slash :: r) := by
    rw [url_of_path hpath, ← length_before_path]
    exact substr_append _ _
  have hlen : (u.pathAt : ℤ) - 7 = u.authority.length := by
    rw [pathAt]
    omega
  rw [hostAndPath, find_slash hpath, asInt_of_lt hshort, if_pos (by omega), hlen,
    checked_eq_some (by omega) (by omega), Option.bind_eq_bind, Option.bind_some, hhost,
    Option.bind_eq_bind, Option.bind_some, hrest]
  rfl

/-- The position of the path is taken for -1. -/
lemma hostAndPath_of_wrapped {r : Bytes} (hpath : u.path = some r)
    (hwrapped : asInt u.pathAt = -1) :
    hostAndPath u.url = some (u.authority ++ slash :: r, [slash]) := by
  have hsubstr : substr u.url 7 = some (u.authority ++ slash :: r) := by
    rw [url_of_path hpath, List.append_assoc]
    exact substr_append httpPrefix _
  rw [hostAndPath, find_slash hpath, hwrapped, if_neg (not_not.mpr rfl), hsubstr, Option.map_some]

/-- The position of the path is taken for another one. -/
lemma pathAt_lt_of_hostAndPath {r hostName : Bytes} (hpath : u.path = some r)
    (hfound : asInt u.pathAt ≠ -1)
    (h : hostAndPath u.url = some (hostName, slash :: r)) : u.pathAt < 2147483648 := by
  have hpos := (asInt_bounds u.pathAt).2
  have hlen : u.url.length = u.pathAt + (r.length + 1) := by
    rw [url_of_path hpath, List.length_append, length_before_path, List.length_cons]
  rw [hostAndPath, find_slash hpath, if_pos hfound] at h
  simp only [Option.bind_eq_bind, Option.bind_eq_some_iff, Option.pure_def, Option.some.injEq,
    Prod.mk.injEq] at h
  obtain ⟨n, -, host, -, rest, hrest, rfl, rfl⟩ := h
  rw [substr] at hrest
  split_ifs at hrest with hinside
  have hkept := congrArg List.length (Option.some.inj hrest)
  rw [List.length_drop, List.length_cons] at hkept
  omega

/-- **The host and the path are told apart**, or the position of an empty path is taken for -1. -/
lemma hostAndPath_eq_iff {hostName : Bytes} :
    hostAndPath u.url = some (hostName, u.parsed.remotepath) ↔
      ((u.path.isSome → u.pathAt < 2147483648) ∧ hostName = u.authority) ∨
        (u.path = some [] ∧ asInt u.pathAt = -1 ∧ hostName = u.authority ++ [slash]) := by
  cases hpath : u.path with
  | none =>
      rw [hostAndPath_of_no_path hpath, parsed, hpath]
      simp [eq_comm]
  | some r =>
      have hparsed : u.parsed.remotepath = slash :: r := by rw [parsed, hpath, Option.elim_some]
      rw [hparsed]
      -- `find` answers a `size_t` that is kept in an `int` and compared with -1
      by_cases hwrapped : asInt u.pathAt = -1
      · have hlong : ¬u.pathAt < 2147483648 := by
          intro hshort
          rw [asInt_of_lt hshort] at hwrapped
          omega
        rw [hostAndPath_of_wrapped hpath hwrapped]
        constructor
        · intro h
          obtain ⟨rfl, hr⟩ := Prod.mk.inj (Option.some.inj h)
          cases hr
          exact .inr ⟨rfl, hwrapped, rfl⟩
        · rintro (⟨hshort, -⟩ | ⟨hr, -, rfl⟩)
          · exact absurd (hshort rfl) hlong
          · cases hr
            rfl
      · constructor
        · intro h
          have hshort := pathAt_lt_of_hostAndPath hpath hwrapped h
          rw [hostAndPath_of_path hpath hshort] at h
          exact .inl ⟨fun _ => hshort, (Prod.mk.inj (Option.some.inj h)).1.symm⟩
        · rintro (⟨hshort, rfl⟩ | ⟨-, h, -⟩)
          · exact hostAndPath_of_path hpath (hshort rfl)
          · exact absurd h hwrapped

/-! ### The port -/

lemma authority_of_no_port (hport : u.port = none) : u.authority = u.host := by
  rw [authority, portPart, hport, Option.elim_none, List.append_nil]

lemma authority_of_port {p : Fin 65536} (hport : u.port = some p) :
    u.authority = u.host ++ colon :: decimal p := by
  rw [authority, portPart, hport, Option.elim_some]

/-- No `:` is found. -/
lemma portOf_of_no_colon (hport : u.port = none) (hpath : ∀ r ∈ u.path, colon ∉ r) :
    portOf u.url = some 80 := by
  have hcolon : colon ∉ u.authority ++ u.pathPart := by
    rw [authority_of_no_port hport, List.mem_append, not_or]
    refine ⟨u.colon_not_mem_host, ?_⟩
    rw [pathPart]
    cases hr : u.path with
    | none => exact List.not_mem_nil
    | some r => exact List.not_mem_cons_of_ne_of_not_mem (by decide) (hpath r hr)
  rw [portOf, url, find_behind_http_none hcolon, if_neg (not_not.mpr rfl)]

/-- The first `:` is found in the path. -/
lemma portOf_of_colon (hport : u.port = none) {before after : Bytes}
    (hpath : u.path = some (before ++ colon :: after)) (hbefore : colon ∉ before) :
    portOf u.url = some 80 ↔ ReadsAs80 u.url (asInt (u.pathAt + 1 + before.length)) := by
  have hurl : u.url = (httpPrefix ++ (u.host ++ slash :: before)) ++ colon :: after := by
    rw [url_of_path hpath, authority_of_no_port hport]
    simp only [List.append_assoc, List.cons_append]
  have hcolon : colon ∉ u.host ++ slash :: before := by
    rw [List.mem_append, not_or]
    exact ⟨u.colon_not_mem_host, List.not_mem_cons_of_ne_of_not_mem (by decide) hbefore⟩
  have hlen : 7 + (u.host ++ slash :: before).length = u.pathAt + 1 + before.length := by
    rw [pathAt, authority_of_no_port hport, List.length_append, List.length_cons]
    omega
  have hfind : find u.url colon 8 = asInt (u.pathAt + 1 + before.length) := by
    rw [hurl, find_behind_http (List.append_ne_nil_of_left_ne_nil u.host_ne _) hcolon, hlen]
  rw [portOf, hfind, ReadsAs80]
  by_cases hwrapped : asInt (u.pathAt + 1 + before.length) = -1
  · rw [if_neg (not_not.mpr hwrapped)]
    exact iff_of_true rfl (.inl hwrapped)
  · rw [if_pos hwrapped]
    exact (or_iff_right hwrapped).symm

lemma url_of_port {p : Fin 65536} (hport : u.port = some p) :
    u.url = (httpPrefix ++ u.host) ++ colon :: (decimal p ++ u.pathPart) := by
  rw [url, authority_of_port hport]
  simp only [List.append_assoc, List.cons_append]

/-- The text of a port ends where the path begins. -/
lemma portText_of_port {p : Fin 65536} (hport : u.port = some p)
    (hpath : u.path.isSome → u.pathAt < 2147483648) (hshort : u.portAt < 2147483648) :
    portText u.url (7 + u.host.length : ℕ) = some (decimal p) := by
  have hlen : (httpPrefix ++ u.host).length = 7 + u.host.length := List.length_append
  rw [portAt] at hshort
  rw [url_of_port hport, ← hlen, pathPart]
  refine portText_append (not_mem_decimal (.inl (by decide)) p) ?_ (by omega) ?_
  · cases u.path with
    | none => exact fun b hb => by cases hb
    | some r => exact fun b hb => (Option.some.inj hb).symm
  · cases hr : u.path with
    | none => exact fun hne => absurd rfl hne
    | some r =>
        have hpos := hpath (by rw [hr]; rfl)
        rw [pathAt, authority_of_port hport, List.length_append, List.length_cons] at hpos
        omega

/-- **The port is read** if its text begins at a position that is an `int`. -/
lemma portOf_of_port {p : Fin 65536} (hport : u.port = some p)
    (hpath : u.path.isSome → u.pathAt < 2147483648) (hhost : u.host.length < 2147483648) :
    portOf u.url = some ((p : ℕ) : ℤ) ↔ u.portAt < 2147483648 := by
  have hfind : find u.url colon 8 = asInt (7 + u.host.length) := by
    rw [url_of_port hport, find_behind_http u.host_ne u.colon_not_mem_host]
  rw [portOf, hfind]
  constructor
  · intro hread
    by_contra hlong
    have hwrapped : asInt (7 + u.host.length) < -1 ∨
        asInt (7 + u.host.length) + 1 = 2147483648 := by
      rw [portAt] at hlong
      rw [asInt]
      omega
    rw [if_pos (by omega), portText_eq_none hwrapped] at hread
    cases hread
  · intro hshort
    have htext := portText_of_port hport hpath hshort
    rw [portAt] at hshort
    rw [asInt_of_lt (by omega), if_pos (by omega), htext, Option.map_some, readPort_decimal]

/-! ### All parts -/

lemma recovered_iff_of_no_port (hport : u.port = none) (before after : ℕ) :
    u.Recovered before after ↔ u.Clear := by
  have huport : u.parsed.uPort = 80 := by rw [parsed, hport, Option.elim_none]
  rw [recovered_iff, huport]
  constructor
  · rintro ⟨hostName, hsplit, h80, hcut⟩
    rcases hostAndPath_eq_iff.mp hsplit with ⟨hshort, -⟩ | ⟨-, -, rfl⟩
    · refine ⟨hshort, fun hsome => ?_, fun _ r hr before after hcolon hbefore => ?_⟩
      · rw [hport] at hsome
        cases hsome
      · subst hcolon
        exact (portOf_of_colon hport hr hbefore).mp h80
    · -- the `/` stays at the host
      have hcolon : colon ∉ u.authority ++ [slash] := by
        rw [authority_of_no_port hport, List.mem_append, not_or]
        exact ⟨u.colon_not_mem_host, by decide⟩
      rw [cutPort_of_not_mem hcolon, authority_of_no_port hport] at hcut
      have hlen := congrArg List.length (Option.some.inj hcut)
      rw [List.length_append, List.length_singleton] at hlen
      omega
  · intro h
    refine ⟨u.authority, hostAndPath_eq_iff.mpr (.inl ⟨h.path, rfl⟩), ?_, ?_⟩
    · by_cases hcolon : ∀ r ∈ u.path, colon ∉ r
      · exact portOf_of_no_colon hport hcolon
      · push Not at hcolon
        obtain ⟨r, hr, hmem⟩ := hcolon
        obtain ⟨before, after, rfl, hbefore⟩ := List.eq_append_cons_of_mem hmem
        exact (portOf_of_colon hport hr hbefore).mpr (h.colon hport _ hr before after rfl hbefore)
    · rw [authority_of_no_port hport]
      exact cutPort_of_not_mem u.colon_not_mem_host

lemma recovered_iff_of_port {p : Fin 65536} (hport : u.port = some p) (before after : ℕ) :
    u.Recovered before after ↔ u.Clear := by
  have huport : u.parsed.uPort = ((p : ℕ) : ℤ) := by rw [parsed, hport, Option.elim_some]
  have hcut_iff : ∀ rest, cutPort (u.authority ++ rest) = some u.host ↔
      u.host.length < 2147483648 := by
    intro rest
    rw [authority_of_port hport, List.append_assoc, List.cons_append]
    exact cutPort_colon_iff u.colon_not_mem_host
  have hcut_iff' := hcut_iff []
  rw [List.append_nil] at hcut_iff'
  rw [recovered_iff, huport]
  constructor
  · rintro ⟨hostName, hsplit, hread, hcut⟩
    rcases hostAndPath_eq_iff.mp hsplit with ⟨hshort, rfl⟩ | ⟨-, hwrapped, rfl⟩
    · have hhost := hcut_iff'.mp hcut
      refine ⟨hshort, fun _ => (portOf_of_port hport hshort hhost).mp hread, fun hnone => ?_⟩
      rw [hport] at hnone
      cases hnone
    · -- the port is too short for that
      have hhost := (hcut_iff _).mp hcut
      have hdecimal := length_decimal_le (n := p) (k := 4) (p.2.trans (by norm_num))
      rw [asInt, pathAt, authority_of_port hport, List.length_append, List.length_cons] at hwrapped
      omega
  · intro h
    have hhost : u.host.length < 2147483648 := by
      have hpos := h.port (by rw [hport]; rfl)
      rw [portAt] at hpos
      omega
    exact ⟨u.authority, hostAndPath_eq_iff.mpr (.inl ⟨h.path, rfl⟩),
      (portOf_of_port hport h.path hhost).mpr (h.port (by rw [hport]; rfl)), hcut_iff'.mpr hhost⟩

end UrlParts

/-- **`ParseURL` recovers the parts of a URL** exactly when it is clear. -/
theorem parse_url_recovers_iff (u : UrlParts) (before after : ℕ) :
    u.Recovered before after ↔ u.Clear := by
  cases hport : u.port with
  | none => exact UrlParts.recovered_iff_of_no_port hport before after
  | some p => exact UrlParts.recovered_iff_of_port hport before after

/-! ### A path with a colon -/

namespace UrlParts

variable {u : UrlParts}

/-- The text behind a `:` in the path of a URL of less than 2 GiB. -/
lemma readsAs80_iff {before after : Bytes} (hport : u.port = none)
    (hpath : u.path = some (before ++ colon :: after)) (hshort : u.url.length < 2147483648) :
    ReadsAs80 u.url (asInt (u.pathAt + 1 + before.length)) ↔
      readPort (after.takeWhile (· ≠ slash)) = 80 := by
  have hurl : u.url = (httpPrefix ++ u.host ++ slash :: before) ++
      colon :: (after.takeWhile (· ≠ slash) ++ after.dropWhile (· ≠ slash)) := by
    rw [url_of_path hpath, authority_of_no_port hport, List.takeWhile_append_dropWhile]
    simp only [List.append_assoc, List.cons_append]
  have hlen : (httpPrefix ++ u.host ++ slash :: before).length = u.pathAt + 1 + before.length := by
    rw [← authority_of_no_port hport, List.length_append, length_before_path, List.length_cons]
    omega
  have htotal : u.pathAt + 1 + before.length + 1 + (after.takeWhile (· ≠ slash)).length ≤
      u.url.length := by
    rw [hurl, List.length_append, hlen, List.length_cons, List.length_append]
    omega
  have htext : portText u.url (u.pathAt + 1 + before.length : ℕ) =
      some (after.takeWhile (· ≠ slash)) := by
    rw [hurl, ← hlen]
    refine portText_append ?_ ?_ (by omega) fun _ => by omega
    · intro hmem
      exact absurd (List.mem_takeWhile_imp hmem) (by decide)
    · intro b hb
      have hhead := List.head?_dropWhile_not (fun b => decide (b ≠ slash)) after
      rw [Option.mem_def.mp hb] at hhead
      exact not_not.mp (decide_eq_false_iff_not.mp hhead)
  rw [asInt_of_lt (by omega), ReadsAs80, htext, Option.map_some, Option.some.injEq]
  exact or_iff_right (by omega)

/-- **Below 2 GiB** the parts are recovered unless a `:` in the path is taken for one before a
port. -/
lemma clear_iff (hshort : u.url.length < 2147483648) :
    u.Clear ↔ (u.port = none → ∀ before after, u.path = some (before ++ colon :: after) →
      colon ∉ before → readPort (after.takeWhile (· ≠ slash)) = 80) := by
  constructor
  · intro h hport before after hpath hbefore
    exact (readsAs80_iff hport hpath hshort).mp (h.colon hport _ hpath before after rfl hbefore)
  · intro h
    have hlen : u.pathAt ≤ u.url.length := by
      rw [url, ← List.append_assoc, List.length_append, length_before_path]
      exact Nat.le_add_right _ _
    refine ⟨fun _ => by omega, fun hsome => ?_, fun hport r hpath before after hr hbefore => ?_⟩
    · obtain ⟨p, hport⟩ := Option.isSome_iff_exists.mp hsome
      rw [pathAt, authority_of_port hport, List.length_append, List.length_cons] at hlen
      rw [portAt]
      omega
    · subst hr
      exact (readsAs80_iff hport hpath hshort).mpr (h hport before after hpath hbefore)

end UrlParts

lemma plain_h : ∀ b ∈ [104], b ≠ colon ∧ b ≠ slash ∧ b ≠ backslash ∧ b ≠ space := by
  simp [colon, slash, backslash, space]

lemma plain_a_colon_one : ∀ r ∈ some [97, 58, 49], ∀ b ∈ r, b ≠ space ∧ b ≠ backslash := by
  simp [space, backslash]

/-- `http://h/a:1`. -/
def colonUrl : UrlParts where
  host := [104]
  port := none
  path := some [97, 58, 49]
  host_ne := List.cons_ne_nil 104 []
  host_plain := plain_h
  path_plain := plain_a_colon_one

/-- The end of the path is taken for the port 1. -/
theorem colon_in_path_is_port :
    parseURL (colonUrl.padded 0 0) = some (some ⟨[104], 1, [47, 97, 58, 49]⟩) ∧
      ¬colonUrl.Recovered 0 0 := by
  have hread : parseURL (colonUrl.padded 0 0) = some (some ⟨[104], 1, [47, 97, 58, 49]⟩) := by
    decide
  refine ⟨hread, fun h => ?_⟩
  rw [UrlParts.Recovered, hread] at h
  exact absurd h (by decide)

end Epbs
