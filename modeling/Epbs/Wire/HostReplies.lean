/-
The two host queries: what `host_monitor_transfer_2` packs for them into its reply buffer,
and what `client_query_host_status_0` takes from the reply.

* `strncpy`: the copy of an address into its field of 32 bytes;
* `hostQueryReply`: the reply to a query of the host list and of the node states;
* `queryHosts`, `queryStates`: a query and its reply;
* `HostQueriesCorrect`: every configured host is reported once, as it is in the tables;
* `HostList`, `hostList_of_reach`: the host list in every state reached;
* `host_queries_correct_iff`: the tables that are reported correctly, and
  `host_queries_wrong`: there are none where a configured host has an address.
-/
import Epbs.Transfer.Reports

namespace Epbs

open Words

/-! ### The reply -/

/-- `strncpy(dst, src, n)`: the string or what fits of it, and zeros behind it. -/
def strncpy (n : ℕ) (src : Bytes) : Bytes :=
  let str := (src.takeWhile (· ≠ 0)).take n
  str ++ List.replicate (n - str.length) 0

@[simp] lemma length_strncpy (n : ℕ) (src : Bytes) : (strncpy n src).length = n := by
  have hle : ((src.takeWhile (· ≠ 0)).take n).length ≤ n := List.length_take_le n _
  simp only [strncpy, List.length_append, List.length_replicate]
  omega

/-- A copy of a copy is the copy. -/
lemma strncpy_strncpy (n : ℕ) (src : Bytes) : strncpy n (strncpy n src) = strncpy n src := by
  let str := (src.takeWhile (· ≠ 0)).take n
  have hstr : ∀ c ∈ str, decide (c ≠ 0) = true := by
    intro c hc
    have hmem : c ∈ src.takeWhile (· ≠ 0) := List.mem_of_mem_take hc
    have hne := List.mem_takeWhile_imp hmem
    simpa using hne
  have hzeros : ∀ k, (List.replicate k (0 : UInt8)).takeWhile (· ≠ 0) = [] := by
    intro k
    cases k with
    | zero => rfl
    | succ k => rfl
  have hsame : ((strncpy n src).takeWhile (· ≠ 0)).take n = str := by
    rw [strncpy, List.takeWhile_append_of_pos hstr, hzeros, List.append_nil, List.take_take,
      min_self]
  rw [strncpy, hsame, strncpy]

/-- A number of configured hosts, fewer than `MAX_NUM_HOSTS`. -/
abbrev NumHosts := {n : ℕ // 1 ≤ n ∧ n < maxNumHosts}

/-- The fields of a host in the reply, in the order they are written. -/
def hostWrites (s : Server) (i : ℕ) : List (ℤ × Bytes) :=
  [(24 + 64 * i + 4, encodeInt (s.hostq i).hostStat), (24 + 64 * i, encodeInt (i + 1)),
    (24 + 64 * i + 32, strncpy 32 (s.hostq i).ip)]

/-- **The reply of `host_monitor_transfer_2`**: the node states for `qh_id >= 1`, and the host
list for `qh_id == 0`; both are taken from the index 0 on. -/
def hostQueryReply (numHosts : NumHosts) (localId type src qhId : ℤ) (sendBuffer : RecvBuffer)
    (s : Server) : Option Bytes :=
  if 1 ≤ qhId then
    putAll sendBuffer.1 (intWrites 0 [type, localId, src, qhId] ++
      intWrites 24 ((List.range numHosts).map fun i : ℕ => (s.pcstat i).code))
  else if qhId = 0 then
    putAll sendBuffer.1 (intWrites 0 [type, localId, src, qhId] ++
      (List.range numHosts).flatMap (hostWrites s))
  else some sendBuffer.1

/-- `host_monitor_transfer_2` on its receive buffer. -/
def hostMonitorQuery (numHosts : NumHosts) (localId : ℤ) (recvBuffer : Bytes)
    (sendBuffer : RecvBuffer) (s : Server) : Option Bytes := do
  let type ← intAt recvBuffer 0
  let src ← intAt recvBuffer 4
  let _dist ← intAt recvBuffer 8
  let qhId ← intAt recvBuffer 12
  hostQueryReply numHosts localId type src qhId sendBuffer s

/-! ### The client -/

/-- A row of the host list as the client shows it. -/
structure HostRow where
  hostId : ℤ
  hostStat : ℤ
  ip : Bytes
  deriving DecidableEq

/-- What a host query meets on its way: the number of the client, the word that its header leaves
unset, and what was in the buffers of the server. -/
structure HostQueryPath where
  src : CInt
  localId : CInt
  unset : {bytes : Bytes // bytes.length = 8}
  monitorStale : RecvBuffer
  sendBuffer : RecvBuffer

/-- The query that `client_query_host_status_0` sends, and its reply. -/
def hostReply (p : HostQueryPath) (numHosts : NumHosts) (machineId : CInt) (s : Server) :
    Option Bytes :=
  let request := encodeInts [msgTypeHost, p.src, machineId, machineId] ++ p.unset.1
  hostMonitorQuery numHosts p.localId (p.monitorStale.recv request).1 p.sendBuffer s

/-- **`client_query_host_status_0(0)`**: the rows it shows. -/
def queryHosts (p : HostQueryPath) (numHosts : NumHosts) (s : Server) : Option (List HostRow) := do
  let recvBuffer ← hostReply p numHosts CInt.zero s
  (List.range numHosts).mapM fun i : ℕ => do
    let hostId ← intAt recvBuffer (24 + 64 * i)
    let hostStat ← intAt recvBuffer (24 + 64 * i + 4)
    let ip ← bytesAt recvBuffer (24 + 64 * i + 32) 32
    return ⟨hostId, hostStat, strncpy 32 ip⟩

/-- `client_query_host_status_0` for a machine id from one on: the states in the reply. -/
def queryStates (p : HostQueryPath) (numHosts : NumHosts) (machineId : CInt) (s : Server) :
    Option (List ℤ) := do
  let recvBuffer ← hostReply p numHosts machineId s
  (List.range numHosts).mapM fun i : ℕ => intAt recvBuffer (24 + 4 * i)

/-- **Host queries report every configured host correctly**: in the host list it has one row,
with its status and its address, and there are no other rows; and the states are those of the
configured hosts, in their order. -/
structure HostQueriesCorrect (p : HostQueryPath) (numHosts : NumHosts) (s : Server) : Prop where
  rows : ∃ rows, queryHosts p numHosts s = some rows ∧ ∀ h : ℤ, rows.filter (·.hostId = h) =
    if 1 ≤ h ∧ h ≤ numHosts then [⟨h, (s.hostq h).hostStat, strncpy 32 (s.hostq h).ip⟩] else []
  states : ∀ machineId : CInt, 1 ≤ machineId.1 → queryStates p numHosts machineId s =
    some ((List.range numHosts).map fun i : ℕ => (s.pcstat (i + 1)).code)

/-- Every configured host is in the tables as the entry before it. -/
def AgreesWithPrevious (numHosts : NumHosts) (s : Server) : Prop :=
  ∀ h : ℤ, 1 ≤ h → h ≤ numHosts → (s.hostq (h - 1)).hostStat = (s.hostq h).hostStat ∧
    strncpy 32 (s.hostq (h - 1)).ip = strncpy 32 (s.hostq h).ip ∧ s.pcstat (h - 1) = s.pcstat h

section Replies

variable {p : HostQueryPath} {numHosts : NumHosts} {s : Server}

/-- The query is read as it was sent: its 24 bytes are in front of what was in the buffer before. -/
lemma hostReply_eq (p : HostQueryPath) (numHosts : NumHosts) (machineId : CInt) (s : Server) :
    hostReply p numHosts machineId s =
      hostQueryReply numHosts p.localId msgTypeHost p.src machineId p.sendBuffer s := by
  let request := encodeInts [msgTypeHost, p.src, machineId, machineId] ++ p.unset.1
  have hlen : request.length ≤ msgBuffSize := by
    simp only [request, List.length_append, length_encodeInts, p.unset.2]
    show 4 * 4 + 8 ≤ 2000
    norm_num
  have hbuffer := p.monitorStale.recv_of_le hlen
  have hword : ∀ (k : ℕ) (w : CInt),
      [msgTypeHost, p.src.1, machineId.1, machineId.1][k]? = some w.1 →
      intAt (p.monitorStale.recv request).1 (4 * k : ℕ) = some w.1 := by
    intro k w hw
    rw [hbuffer]
    exact intAt_append (intAt_encodeInts hw _) _
  have htype := hword 0 ⟨msgTypeHost, by decide⟩ rfl
  have hsrc := hword 1 p.src rfl
  have hdist := hword 2 machineId rfl
  have hid := hword 3 machineId rfl
  norm_num at htype hsrc hdist hid
  show hostMonitorQuery numHosts p.localId (p.monitorStale.recv request).1 p.sendBuffer s = _
  simp only [hostMonitorQuery, htype, hsrc, hdist, hid, Option.bind_eq_bind, Option.bind_some]

/-- The writes of a reply, behind its header. -/
lemma exists_reply (sendBuffer : RecvBuffer) {head : List ℤ} (hhead : head.length = 4)
    {ws : List (ℤ × Bytes)} (hapart : ws.Pairwise Apart)
    (hbounds : ∀ w ∈ ws, 24 ≤ w.1 ∧ w.1 + w.2.length ≤ msgBuffSize) :
    ∃ reply, putAll sendBuffer.1 (intWrites 0 head ++ ws) = some reply ∧
      (intWrites 0 head ++ ws).Pairwise Apart := by
  have hbelow : ∀ w ∈ intWrites 0 head, 0 ≤ w.1 ∧ w.1 + w.2.length ≤ 24 := by
    intro w hw
    have hin := bounds_intWrites hw
    rw [hhead] at hin
    omega
  have hle : (24 : ℤ) ≤ sendBuffer.1.length := by
    rw [sendBuffer.2, msgBuffSize]
    norm_num
  refine exists_putAll_append (pairwise_intWrites 0 head) hapart (by norm_num) hle hbelow ?_
  rw [sendBuffer.2]
  exact hbounds

/-- The fields of a host stay in its record, and do not overlap. -/
lemma bounds_hostWrites {i : ℕ} {w : ℤ × Bytes} (h : w ∈ hostWrites s i) :
    ((24 + 64 * i : ℕ) : ℤ) ≤ w.1 ∧ w.1 + w.2.length ≤ (24 + 64 * (i + 1) : ℕ) := by
  simp only [hostWrites, List.mem_cons, List.not_mem_nil, or_false] at h
  rcases h with rfl | rfl | rfl
  · rw [length_encodeInt]
    push_cast
    omega
  · rw [length_encodeInt]
    push_cast
    omega
  · rw [length_strncpy]
    push_cast
    omega

lemma pairwise_hostWrites (s : Server) (i : ℕ) : (hostWrites s i).Pairwise Apart := by
  have hstat : Apart (24 + 64 * i + 4, encodeInt (s.hostq i).hostStat)
      (24 + 64 * i, encodeInt (i + 1)) := .inr (by rw [length_encodeInt]; norm_num)
  have hip : ∀ off : ℤ, off + 4 ≤ 24 + 64 * i + 32 → ∀ n,
      Apart (off, encodeInt n) (24 + 64 * i + 32, strncpy 32 (s.hostq i).ip) := by
    intro off hoff n
    exact .inl (by rw [length_encodeInt]; exact hoff)
  simp only [hostWrites, List.pairwise_cons, List.mem_cons, List.not_mem_nil, or_false,
    forall_eq_or_imp, forall_eq]
  exact ⟨⟨hstat, hip _ (by omega) _⟩, hip _ (by omega) _, fun _ hc => hc.elim, .nil⟩

/-- **The host list in the reply**: the row of a host has the entry before it. The reply is
packed from `hostq[0]` on and numbered from 1, and the client goes by the number. -/
lemma queryHosts_eq (hstat : ∀ i, -2147483648 ≤ (s.hostq i).hostStat ∧
      (s.hostq i).hostStat < 2147483648) :
    queryHosts p numHosts s = some ((List.range numHosts).map fun i : ℕ =>
      ⟨i + 1, (s.hostq i).hostStat, strncpy 32 (s.hostq i).ip⟩) := by
  have hn : numHosts.1 < 5 := numHosts.2.2
  have hapart := pairwise_blocks (pairwise_hostWrites s) (fun i w hw => bounds_hostWrites hw)
    numHosts
  have hbounds : ∀ w ∈ (List.range numHosts).flatMap (hostWrites s),
      24 ≤ w.1 ∧ w.1 + w.2.length ≤ msgBuffSize := by
    intro w hw
    obtain ⟨i, hi, hmem⟩ := List.mem_flatMap.mp hw
    have hin := bounds_hostWrites hmem
    have hlt := List.mem_range.mp hi
    rw [msgBuffSize]
    push_cast at hin ⊢
    omega
  obtain ⟨reply, hreply, hall⟩ := exists_reply p.sendBuffer
    (rfl : [msgTypeHost, p.localId.1, p.src.1, 0].length = 4) hapart hbounds
  have hquery : hostReply p numHosts CInt.zero s = some reply := by
    rw [hostReply_eq, hostQueryReply, if_neg (by norm_num), if_pos CInt.val_zero]
    exact hreply
  have hmem : ∀ i ∈ List.range numHosts, ∀ w ∈ hostWrites s i,
      w ∈ intWrites 0 [msgTypeHost, p.localId.1, p.src.1, 0] ++
        (List.range numHosts).flatMap (hostWrites s) :=
    fun i hi w hw => List.mem_append_right _ (List.mem_flatMap.mpr ⟨i, hi, hw⟩)
  rw [queryHosts, hquery]
  refine mapM_eq_some fun i hi => ?_
  have hlt : (i : ℤ) < 2147483647 := by
    have hi' := List.mem_range.mp hi
    omega
  -- no write of the reply covers another, so each field of row `i` is read back as written
  let label : CInt := ⟨i + 1, by omega⟩
  let stat : CInt := ⟨(s.hostq i).hostStat, hstat i⟩
  have hid : intAt reply (24 + 64 * i) = some label.1 :=
    intAt_putAll hreply hall (hmem i hi _ (by simp [hostWrites, label]))
  have hword : intAt reply (24 + 64 * i + 4) = some stat.1 :=
    intAt_putAll hreply hall (hmem i hi _ (by simp [hostWrites, stat]))
  have hip : bytesAt reply (24 + 64 * i + 32) 32 = some (strncpy 32 (s.hostq i).ip) := by
    have hbytes := bytesAt_putAll hreply hall
      (hmem i hi (24 + 64 * i + 32, strncpy 32 (s.hostq i).ip) (by simp [hostWrites]))
    rwa [length_strncpy] at hbytes
  simp only [hid, hword, hip, strncpy_strncpy, Option.bind_eq_bind, Option.bind_some,
    Option.pure_def]
  rfl

/-- **The node states in the reply** start with the entry 0. -/
lemma queryStates_eq {machineId : CInt} (hid : 1 ≤ machineId.1) :
    queryStates p numHosts machineId s =
      some ((List.range numHosts).map fun i : ℕ => (s.pcstat i).code) := by
  have hn : numHosts.1 < 5 := numHosts.2.2
  let stats : List ℤ := (List.range numHosts).map fun i : ℕ => (s.pcstat i).code
  have hbounds : ∀ w ∈ intWrites 24 stats, 24 ≤ w.1 ∧ w.1 + w.2.length ≤ msgBuffSize := by
    intro w hw
    have hin := bounds_intWrites hw
    simp only [stats, List.length_map, List.length_range] at hin
    rw [msgBuffSize]
    omega
  obtain ⟨reply, hreply, hall⟩ := exists_reply p.sendBuffer
    (rfl : [msgTypeHost, p.localId.1, p.src.1, machineId.1].length = 4)
    (pairwise_intWrites 24 stats) hbounds
  have hquery : hostReply p numHosts machineId s = some reply := by
    rw [hostReply_eq, hostQueryReply, if_pos hid]
    exact hreply
  rw [queryStates, hquery]
  refine mapM_eq_some fun i hi => ?_
  let stat : CInt := ⟨(s.pcstat i).code, by cases s.pcstat i <;> decide⟩
  have hstat : stats[i]? = some stat.1 := by
    rw [List.getElem?_map, List.getElem?_range (List.mem_range.mp hi)]
    rfl
  exact intAt_putAll hreply hall (List.mem_append_right _ (mem_intWrites hstat 24))

end Replies

/-! ### The host lists that are reached -/

/-- What stays true of the host list: its statuses are `int`s, and its addresses are those of
the configuration. -/
structure HostList (ips : ℤ → Bytes) (s : Server) : Prop where
  stat : ∀ i, -2147483648 ≤ (s.hostq i).hostStat ∧ (s.hostq i).hostStat < 2147483648
  ip : ∀ i, (s.hostq i).ip = ((configure ips).hostq i).ip

namespace HostList

variable {ips : ℤ → Bytes} {s s' : Server}

lemma configure (ips : ℤ → Bytes) : HostList ips (Epbs.configure ips) := by
  refine ⟨fun i => ?_, fun i => rfl⟩
  rw [Epbs.configure]
  simp only
  split_ifs
  · exact (by decide : -2147483648 ≤ HostStat.online.code ∧ HostStat.online.code < 2147483648)
  · exact (by decide : -2147483648 ≤ (0 : ℤ) ∧ (0 : ℤ) < 2147483648)

/-- Only the host list counts. -/
lemma congr (h : HostList ips s) (hhostq : s'.hostq = s.hostq) : HostList ips s' :=
  ⟨hhostq ▸ h.stat, hhostq ▸ h.ip⟩

/-- A host report sets one status, and that to the word it carries. -/
lemma hostStatusReport (h : HostList ips s) {buf : Bytes}
    (hs : Epbs.hostStatusReport buf s = some s') : HostList ips s' := by
  obtain ⟨msg, hmsg, happlied⟩ := Option.bind_eq_some_iff.mp hs
  have hstat := reportAt_m2_mem hmsg
  rw [(epbsHostStatus_cases happlied).2.1]
  constructor
  · intro i
    rw [Server.setHostStat_hostq, Function.update_apply]
    split_ifs with hi
    · exact hstat
    · exact h.stat i
  · intro i
    rw [← h.ip i, Server.setHostStat_hostq, Function.update_apply]
    split_ifs with hi
    · rw [hi]
    · rfl

end HostList

/-- **The host list in every state reached**, whatever the reports are and whatever the other
threads do. -/
theorem hostList_of_reach {resultBuffer hostBuffer : RecvBuffer} {ips : ℤ → Bytes}
    {x : ReportLoops}
    (h : (reportLoops resultBuffer hostBuffer ips).Reach Machine.always x) :
    HostList ips x.srv := by
  refine h.invariant (I := fun x => HostList ips x.srv) (.configure ips) ?_
  intro x l x' _ hx _ hstep
  cases l with
  | result r now =>
      obtain ⟨srv, hsrv, rfl⟩ := Option.map_eq_some_iff.mp hstep
      obtain ⟨msg, -, happlied⟩ := Option.bind_eq_some_iff.mp hsrv
      exact hx.congr (jobQueueResult1_hostq happlied)
  | hosts reads =>
      obtain ⟨kept, -, -, hsrv⟩ := ReportLoops.readHosts_cases hstep
      split_ifs at hsrv with hpos
      · exact hx.hostStatusReport hsrv
      · rwa [hsrv]
  | others srv =>
      cases hstep
      exact hx.congr rfl

/-! ### The law -/

/-- The host list is reported correctly exactly when every row is like the entry before it. -/
lemma rows_correct_iff {p : HostQueryPath} {numHosts : NumHosts} {s : Server}
    (hstat : ∀ i, -2147483648 ≤ (s.hostq i).hostStat ∧ (s.hostq i).hostStat < 2147483648) :
    (∃ rows, queryHosts p numHosts s = some rows ∧ ∀ h : ℤ, rows.filter (·.hostId = h) =
      if 1 ≤ h ∧ h ≤ numHosts then [⟨h, (s.hostq h).hostStat, strncpy 32 (s.hostq h).ip⟩] else [])
      ↔ ∀ h : ℤ, 1 ≤ h → h ≤ numHosts → (s.hostq (h - 1)).hostStat = (s.hostq h).hostStat ∧
        strncpy 32 (s.hostq (h - 1)).ip = strncpy 32 (s.hostq h).ip := by
  let row : ℕ → HostRow := fun i => ⟨i + 1, (s.hostq i).hostStat, strncpy 32 (s.hostq i).ip⟩
  -- the row with a label is the entry before it
  have hfilter : ∀ h : ℤ, ((List.range numHosts).map row).filter (·.hostId = h) =
      if 1 ≤ h ∧ h ≤ numHosts then
        [⟨h, (s.hostq (h - 1)).hostStat, strncpy 32 (s.hostq (h - 1)).ip⟩]
      else [] := by
    intro h
    rw [List.filter_map]
    show ((List.range numHosts).filter fun i : ℕ => (i : ℤ) + 1 = h).map row = _
    rw [filter_range_succ]
    split_ifs with hin
    · have hcast : ((h - 1).toNat : ℤ) = h - 1 := Int.toNat_of_nonneg (by omega)
      rw [List.map_singleton]
      simp only [row, hcast, sub_add_cancel]
    · rfl
  constructor
  · rintro ⟨rows, hrows, hcorrect⟩ h hlow hhigh
    rw [queryHosts_eq hstat, Option.some.injEq] at hrows
    have hown := hcorrect h
    rw [← hrows, hfilter, if_pos ⟨hlow, hhigh⟩, if_pos ⟨hlow, hhigh⟩] at hown
    obtain ⟨-, hsame, hip⟩ := HostRow.mk.inj (List.cons.inj hown).1
    exact ⟨hsame, hip⟩
  · intro hagree
    refine ⟨_, queryHosts_eq hstat, fun h => (hfilter h).trans ?_⟩
    split_ifs with hin
    · obtain ⟨hsame, hip⟩ := hagree h hin.1 hin.2
      rw [hsame, hip]
    · rfl

/-- The node states are reported correctly exactly when each is the state before it. -/
lemma states_correct_iff {p : HostQueryPath} {numHosts : NumHosts} {s : Server} :
    (∀ machineId : CInt, 1 ≤ machineId.1 → queryStates p numHosts machineId s =
      some ((List.range numHosts).map fun i : ℕ => (s.pcstat (i + 1)).code)) ↔
      ∀ h : ℤ, 1 ≤ h → h ≤ numHosts → s.pcstat (h - 1) = s.pcstat h := by
  constructor
  · intro hcorrect h hlow hhigh
    have hown := hcorrect CInt.one le_rfl
    rw [queryStates_eq (show 1 ≤ (1 : ℤ) from le_rfl), Option.some.injEq,
      List.map_inj_left] at hown
    have hcast : ((h - 1).toNat : ℤ) = h - 1 := Int.toNat_of_nonneg (by omega)
    have hcode := hown (h - 1).toNat (List.mem_range.mpr (by omega))
    rw [hcast, sub_add_cancel] at hcode
    exact HostStat.code_injective hcode
  · intro hagree machineId hid
    rw [queryStates_eq hid, Option.some.injEq, List.map_inj_left]
    intro i hi
    have hlt := List.mem_range.mp hi
    have hsame := hagree (i + 1) (by omega) (by omega)
    rw [add_sub_cancel_right] at hsame
    rw [hsame]

/-- **Host queries report every configured host correctly**, in every table that is reached,
exactly when every configured host is in the tables as the entry before it. -/
theorem host_queries_correct_iff {resultBuffer hostBuffer : RecvBuffer} {ips : ℤ → Bytes}
    {x : ReportLoops} (h : (reportLoops resultBuffer hostBuffer ips).Reach Machine.always x)
    (p : HostQueryPath) (numHosts : NumHosts) :
    HostQueriesCorrect p numHosts x.srv ↔ AgreesWithPrevious numHosts x.srv := by
  have hlist := hostList_of_reach h
  constructor
  · intro hcorrect i hlow hhigh
    obtain ⟨hstat, hip⟩ := (rows_correct_iff hlist.stat).mp hcorrect.rows i hlow hhigh
    exact ⟨hstat, hip, states_correct_iff.mp hcorrect.states i hlow hhigh⟩
  · intro hagree
    refine ⟨(rows_correct_iff hlist.stat).mpr fun i hlow hhigh => ?_,
      states_correct_iff.mpr fun i hlow hhigh => ?_⟩
    · obtain ⟨hstat, hip, -⟩ := hagree i hlow hhigh
      exact ⟨hstat, hip⟩
    · exact (hagree i hlow hhigh).2.2

/-- A path with buffers of zeros. -/
def zeroHostPath : HostQueryPath where
  src := CInt.one
  localId := CInt.one
  unset := zeros 8
  monitorStale := zeroBuffer
  sendBuffer := zeroBuffer

/-- A report on the host status port. -/
def hostReport (hostId hostStatus : ℤ) : ReportStep :=
  .hosts [.report ⟨encodeInts [msgTypeHost, 1, 1, hostId, hostStatus, 0], by
    rw [length_encodeInts]
    exact ⟨le_rfl, show 4 * 6 ≤ 2000 by norm_num⟩⟩]

/-- After a report that makes the entry 0 ONLINE as the host 1 is, both without an address, the
queries are correct; after one more that makes the host 1 BUSY they are not. -/
theorem host_queries_correct_iff_reported : ∃ x x',
    (reportLoops zeroBuffer zeroBuffer fun _ => []).run [hostReport 0 4]
        (reportLoops zeroBuffer zeroBuffer fun _ => []).init = some x ∧
      (reportLoops zeroBuffer zeroBuffer fun _ => []).step (hostReport 1 1) x = some x' ∧
      HostQueriesCorrect zeroHostPath ⟨1, by decide⟩ x.srv ∧
      ¬HostQueriesCorrect zeroHostPath ⟨1, by decide⟩ x'.srv := by
  have hrun : ((reportLoops zeroBuffer zeroBuffer fun _ => []).run [hostReport 0 4]
      (reportLoops zeroBuffer zeroBuffer fun _ => []).init).any (fun x =>
        decide (x.srv.hostq 0 = ⟨0, 4, []⟩ ∧ x.srv.hostq 1 = ⟨1, 4, []⟩ ∧
          x.srv.pcstat 0 = x.srv.pcstat 1) &&
        ((reportLoops zeroBuffer zeroBuffer fun _ => []).step (hostReport 1 1) x).any fun x' =>
          decide ((x'.srv.hostq 0).hostStat ≠ (x'.srv.hostq 1).hostStat)) = true := by
    decide +kernel
  obtain ⟨x, hx, hp⟩ := (Option.any_eq_true _ _).mp hrun
  obtain ⟨hentries, hnext⟩ := Bool.and_eq_true_iff.mp hp
  obtain ⟨hzero, hone, hstate⟩ := of_decide_eq_true hentries
  obtain ⟨x', hx', hdiffer⟩ := (Option.any_eq_true _ _).mp hnext
  have hreach := Machine.reach_of_run hx
  refine ⟨x, x', hx, hx', (host_queries_correct_iff hreach zeroHostPath ⟨1, by decide⟩).mpr ?_, ?_⟩
  · intro h hlow hhigh
    obtain rfl : h = 1 := le_antisymm hhigh hlow
    rw [sub_self, hzero, hone]
    exact ⟨rfl, rfl, hstate⟩
  · intro hcorrect
    have hagree := (host_queries_correct_iff (hreach.step trivial hx') zeroHostPath
      ⟨1, by decide⟩).mp hcorrect
    exact of_decide_eq_true hdiffer (hagree 1 le_rfl le_rfl).1

/-- Where a configured host has an address the host list is never reported correctly: the
entry 0, which is reported for the host 1, has none. -/
theorem host_queries_wrong {resultBuffer hostBuffer : RecvBuffer} {ips : ℤ → Bytes}
    {x : ReportLoops} (h : (reportLoops resultBuffer hostBuffer ips).Reach Machine.always x)
    (p : HostQueryPath) (numHosts : NumHosts) {host : ℕ} (hlow : 1 ≤ host)
    (hhigh : host ≤ numHosts.1) (hip : strncpy 32 (ips host) ≠ strncpy 32 []) :
    ¬HostQueriesCorrect p numHosts x.srv := by
  intro hcorrect
  have hlist := hostList_of_reach h
  have hsame := (rows_correct_iff hlist.stat).mp hcorrect.rows
  have hnone : ∀ i : ℕ, i ≤ host → strncpy 32 (x.srv.hostq i).ip = strncpy 32 [] := by
    intro i
    induction i with
    | zero =>
        intro _
        rw [hlist.ip]
        rfl
    | succ i ih =>
        intro hle
        rw [← ih (by omega)]
        have hrow := (hsame (i + 1) (by omega) (by omega)).2
        rw [add_sub_cancel_right] at hrow
        exact_mod_cast hrow.symm
  refine hip ?_
  rw [← hnone host le_rfl, hlist.ip, configure]
  have hn : numHosts.1 < 5 := numHosts.2.2
  have hmax : maxNumHosts = 5 := rfl
  simp only
  rw [if_pos (by omega)]

/-- The row of the host 1 shows the status 0 of the entry that is not configured. -/
theorem first_row_is_unconfigured :
    (reportLoops zeroBuffer zeroBuffer fun _ => []).Reach Machine.always
        (reportLoops zeroBuffer zeroBuffer fun _ => []).init ∧
      ¬HostQueriesCorrect zeroHostPath ⟨1, by decide⟩
        (reportLoops zeroBuffer zeroBuffer fun _ => []).init.srv := by
  refine ⟨.init, fun hcorrect => ?_⟩
  have hrow := (rows_correct_iff (HostList.configure _).stat).mp hcorrect.rows 1 le_rfl le_rfl
  exact absurd hrow.1 (by decide)

end Epbs
