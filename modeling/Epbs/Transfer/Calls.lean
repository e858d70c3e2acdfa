/-
What the calls of the socket layer do.

* `Touches`: a call that changes at most the statuses of some sockets, their flags
  and reasons; most calls do no more;
* `walkThrough_eq`: `walk_through` takes at most one connection off the port, and for
  the rest touches accepted sockets;
* `select_spec`: `select` gives the events that one of its polls finds;
* `listened_cases`, `Listening`: where a new connection goes, and what keeps the
  listener working.
-/
import Mathlib.Tactic
import Epbs.Transfer.ETransfer

namespace Epbs

namespace ETransfer

/-! ### Calls that change statuses only -/

/-- At most the statuses of the sockets in `S` changed, their reasons, and the flags
of all sockets. -/
structure Touches (S : Set Ptr) (t t' : ETransfer) : Prop where
  mTcpSock : t'.mTcpSock = t.mTcpSock
  mTcpListener : t'.mTcpListener = t.mTcpListener
  mTcpMap : t'.mTcpMap = t.mTcpMap
  mTcpAcceptList : t'.mTcpAcceptList = t.mTcpAcceptList
  backlog : t'.backlog = t.backlog
  conn : t'.conn = t.conn
  mSock : ∀ p, (t'.sockets p).map (·.mSock) = (t.sockets p).map (·.mSock)
  mStatus : ∀ p, p ∉ S → (t'.sockets p).map (·.mStatus) = (t.sockets p).map (·.mStatus)

namespace Touches

variable {S S' : Set Ptr} {t t' t'' : ETransfer}

protected lemma refl (S : Set Ptr) (t : ETransfer) : Touches S t t :=
  ⟨rfl, rfl, rfl, rfl, rfl, rfl, fun _ => rfl, fun _ _ => rfl⟩

protected lemma trans (h : Touches S t t') (h' : Touches S t' t'') : Touches S t t'' where
  mTcpSock := h'.mTcpSock.trans h.mTcpSock
  mTcpListener := h'.mTcpListener.trans h.mTcpListener
  mTcpMap := h'.mTcpMap.trans h.mTcpMap
  mTcpAcceptList := h'.mTcpAcceptList.trans h.mTcpAcceptList
  backlog := h'.backlog.trans h.backlog
  conn := h'.conn.trans h.conn
  mSock p := (h'.mSock p).trans (h.mSock p)
  mStatus p hp := (h'.mStatus p hp).trans (h.mStatus p hp)

lemma mono (h : Touches S t t') (hS : S ⊆ S') : Touches S' t t' :=
  { h with mStatus := fun p hp => h.mStatus p fun hc => hp (hS hc) }

/-- An update that keeps the descriptor and, outside `S`, the status. -/
lemma setSock (t : ETransfer) {p : Ptr} {f : UTcpSocket → UTcpSocket}
    (hsock : ∀ s, (f s).mSock = s.mSock) (hstatus : p ∉ S → ∀ s, (f s).mStatus = s.mStatus) :
    Touches S t (t.setSock p f) := by
  refine ⟨rfl, rfl, rfl, rfl, rfl, rfl, fun q => ?_, fun q hq => ?_⟩
  · by_cases hqp : q = p
    · subst hqp
      simp [ETransfer.setSock, Function.comp_def, hsock]
    · simp [ETransfer.setSock, hqp]
  · by_cases hqp : q = p
    · subst hqp
      simp [ETransfer.setSock, Function.comp_def, hstatus hq]
    · simp [ETransfer.setSock, hqp]

/-- A fold of such calls. -/
lemma foldl {α : Type*} {f : ETransfer → α → ETransfer} (xs : List α)
    (hf : ∀ t, ∀ x ∈ xs, Touches S t (f t x)) (t : ETransfer) :
    Touches S t (xs.foldl f t) := by
  induction xs generalizing t with
  | nil => exact .refl S t
  | cons x xs ih =>
      have hhead : Touches S t (f t x) := hf t x List.mem_cons_self
      have htail := ih (fun t y hy => hf t y (List.mem_cons_of_mem x hy)) (f t x)
      exact hhead.trans htail

lemma sock_mSock (h : Touches S t t') (p : Ptr) : (t'.sock p).mSock = (t.sock p).mSock := by
  have hp := h.mSock p
  rw [sock, sock]
  cases hs : t.sockets p <;> cases hs' : t'.sockets p <;> simp_all

lemma sock_mStatus (h : Touches S t t') {p : Ptr} (hp : p ∉ S) :
    (t'.sock p).mStatus = (t.sock p).mStatus := by
  have hp := h.mStatus p hp
  rw [sock, sock]
  cases hs : t.sockets p <;> cases hs' : t'.sockets p <;> simp_all

lemma isSome (h : Touches S t t') (p : Ptr) :
    (t'.sockets p).isSome = (t.sockets p).isSome := by
  have hp := congrArg Option.isSome (h.mSock p)
  rwa [Option.isSome_map, Option.isSome_map] at hp

/-- The sockets keep their connections. -/
lemma connOf (h : Touches S t t') (p : Ptr) : t'.connOf p = t.connOf p := by
  have hp := congrArg (Option.bind · t.conn) (h.mSock p)
  simpa [ETransfer.connOf, h.conn, Option.bind_map, Function.comp_def] using hp

/-- What a poll finds depends on statuses and descriptors. -/
lemma available (h : Touches S t t') {it : Upoll} (hit : it.usock ∉ S) (poll : Poll) :
    t'.available poll it = t.available poll it := by
  simp only [ETransfer.available, UTcpSocket.isError, canRead, canWrite, h.sock_mSock,
    h.sock_mStatus hit, h.mTcpListener, h.mTcpAcceptList]
  rfl

end Touches

lemma mem_tcpSockets {t : ETransfer} {p : Ptr} :
    p ∈ t.tcpSockets ↔ ∃ fd : ℤ, t.mTcpMap[fd]? = some p := by
  simp only [tcpSockets, List.mem_map, Prod.exists, exists_eq_right,
    Std.TreeMap.mem_toList_iff_getElem?_eq_some]

lemma sockets_setSock (t : ETransfer) (p q : Ptr) (f : UTcpSocket → UTcpSocket) :
    (t.setSock p f).sockets q = if q = p then (t.sockets p).map f else t.sockets q := by
  simp [setSock, Function.update_apply]

lemma touches_procTcpSocket (t : ETransfer) (sets : FdSets) :
    Touches {p | p ∈ t.tcpSockets} t (t.procTcpSocket sets) := by
  refine Touches.foldl _ (fun t' p hp => ?_) t
  refine Touches.setSock t' (fun s => ?_) fun hc => absurd hp hc
  rw [procSocket]
  split_ifs <;> rfl

/-- What an update of any socket keeps of every object, it keeps of the socket at `p`. -/
lemma sock_setSock {P : UTcpSocket → Prop} {f : UTcpSocket → UTcpSocket}
    (hf : ∀ s, P s → P (f s)) {t : ETransfer} {p : Ptr} (q : Ptr) (hp : P (t.sock p)) :
    P ((t.setSock q f).sock p) := by
  rw [sock, sockets_setSock]
  by_cases hpq : p = q
  · subst hpq
    rw [if_pos rfl]
    rw [sock] at hp
    cases hs : t.sockets p with
    | none => simpa [hs] using hp
    | some s =>
        rw [hs] at hp
        exact hf s hp
  · rw [if_neg hpq]
    exact hp

/-- A socket whose descriptor is not in the error set is in error only if it was. -/
lemma not_isError_procTcpSocket {t : ETransfer} {sets : FdSets} {p : Ptr}
    (hfd : (t.sock p).mSock ∉ sets.eset) (hp : (t.sock p).isError = false) :
    ((t.procTcpSocket sets).sock p).isError = false := by
  let P : UTcpSocket → Prop := fun s => s.mSock ∉ sets.eset ∧ s.isError = false
  have hproc : ∀ s, P s → P (procSocket sets s) := by
    intro s ⟨hs, herr⟩
    rw [procSocket, if_neg hs]
    refine ⟨hs, ?_⟩
    simp only [UTcpSocket.isError, beq_eq_false_iff_ne] at herr ⊢
    split_ifs
    · decide
    · exact herr
  have hfold : ∀ (ps : List Ptr) (t : ETransfer), P (t.sock p) →
      P ((ps.foldl (fun t q => t.setSock q (procSocket sets)) t).sock p) := by
    intro ps
    induction ps with
    | nil => exact fun _ h => h
    | cons q ps ih => exact fun t h => ih _ (sock_setSock hproc q h)
  exact (hfold _ t ⟨hfd, hp⟩).2

lemma touches_setNeeds (t : ETransfer) (src : List Upoll) : Touches ∅ t (t.setNeeds src) := by
  refine Touches.foldl src (fun t' it _ => ?_) t
  exact Touches.setSock t' (fun _ => rfl) fun _ _ => rfl

lemma touches_destroySocket (t : ETransfer) (p : Ptr) : Touches {p} t (t.destroySocket p) :=
  { Touches.setSock t (S := {p}) (p := p) (f := fun s => { s with mStatus := .closed })
      (fun _ => rfl) fun hc => absurd rfl hc with }

lemma touches_noteError (t : ETransfer) (p : Ptr) (errno : ℤ) :
    Touches {p} t (t.noteError p errno) :=
  Touches.setSock t (fun _ => rfl) fun hc => absurd rfl hc

/-- An error of a call is noted in the socket. -/
lemma sock_noteError {t : ETransfer} {p : Ptr} (hsome : (t.sockets p).isSome) (errno : ℤ) :
    (t.noteError p errno).sock p =
      { t.sock p with
        mReason := errno
        mStatus := if errno ≠ eagain then .error else (t.sock p).mStatus } := by
  obtain ⟨u, hu⟩ := Option.isSome_iff_exists.mp hsome
  simp [noteError, sock, setSock, hu]

lemma touches_recv (t : ETransfer) (p : Ptr) (len : ℕ) (answer : RecvAnswer) :
    Touches {p} t (t.recv p len answer).1 := by
  rw [recv.eq_def]
  split_ifs
  · exact .refl _ t
  · cases answer with
    | error errno => exact touches_noteError t p errno
    | data bytes =>
        simp only
        split_ifs
        · exact Touches.setSock t (fun _ => rfl) fun hc => absurd rfl hc
        · exact .refl _ t

lemma touches_send (t : ETransfer) (p : Ptr) (buf : Bytes) (answer : SendAnswer) :
    Touches {p} t (t.send p buf answer).1 := by
  rw [send.eq_def]
  split_ifs
  · exact .refl _ t
  · cases answer with
    | error errno => exact touches_noteError t p errno
    | sent n => exact ⟨rfl, rfl, rfl, rfl, rfl, rfl, fun _ => rfl, fun _ _ => rfl⟩

/-- The loops accept on the listener. -/
lemma accept_of_nil {t : ETransfer} (h : t.mTcpAcceptList = []) :
    t.accept (some t.mTcpListener) = (t, none) := by
  rw [accept, if_pos (Or.inl rfl), h]

lemma accept_of_cons {t : ETransfer} {p : Ptr} {rest : List Ptr}
    (h : t.mTcpAcceptList = p :: rest) :
    t.accept (some t.mTcpListener) =
      ({ (t.setSock p fun s => { s with mStatus := .connected }) with mTcpAcceptList := rest },
        some p) := by
  rw [accept, if_pos (Or.inl rfl), h]

/-! ### The two calls of an iteration -/

/-- The listening part of `walk_through`: a connection is taken off the port if the
kernel reports the port. -/
def listened (t : ETransfer) (io : WalkIo) : ETransfer :=
  match io.ready with
  | some r => if 0 ≤ t.mTcpSock ∧ r.rset t.mTcpSock = true then t.procTcpListenSock io else t
  | none => t

lemma le_foldl_max (xs : List ℤ) (a : ℤ) : a ≤ xs.foldl max a := by
  induction xs generalizing a with
  | nil => exact le_rfl
  | cons x xs ih => exact (le_max_left a x).trans (ih (max a x))

/-- The listening descriptor is watched: it is in the set that `walk_through` gives to `select`, and
so it is reported if it is ready. -/
lemma mem_rset_select {t : ETransfer} {io : WalkIo} {r : Ready} {sets : FdSets}
    (hr : io.ready = some r) (hsock : 0 ≤ t.mTcpSock)
    (hsets : io.select (t.setConnSet.2 + 1) t.setConnSet.1 = some sets) :
    t.mTcpSock ∈ sets.rset ↔ r.rset t.mTcpSock = true := by
  rw [WalkIo.select, hr, Option.map_some, Option.some.injEq] at hsets
  subst hsets
  have hwatched : t.mTcpSock ∈ t.setConnSet.1.rset := by simp [setConnSet, hsock]
  have hbound : t.mTcpSock ≤ t.setConnSet.2 := le_foldl_max _ _
  simp [List.mem_filter, hwatched, hbound]

/-- **`walk_through`** takes at most one connection off the port; the rest of it
changes statuses and flags. -/
lemma walkThrough_eq (t : ETransfer) (io : WalkIo) :
    t.walkThrough io = t.listened io ∨
      ∃ r sets, io.ready = some r ∧ (∀ fd ∈ sets.eset, r.eset fd = true) ∧
        t.walkThrough io = (t.listened io).procTcpSocket sets := by
  rw [walkThrough, listened]
  split_ifs with hneg
  · left
    cases io.ready with
    | none => rfl
    | some r => exact (if_neg fun hc => absurd hc.1 (not_le.mpr hneg)).symm
  · cases hr : io.ready with
    | none =>
        left
        simp [WalkIo.select, hr]
    | some r =>
        right
        obtain ⟨sets, hsets⟩ : ∃ sets, io.select (t.setConnSet.2 + 1) t.setConnSet.1 = some sets :=
          ⟨_, by rw [WalkIo.select, hr, Option.map_some]⟩
        refine ⟨r, sets, rfl, fun fd hfd => ?_, ?_⟩
        · rw [WalkIo.select, hr, Option.map_some, Option.some.injEq] at hsets
          subst hsets
          simp only [List.mem_filter, Bool.and_eq_true] at hfd
          exact hfd.2.2
        · rw [hsets]
          simp only [procRwSet, mem_rset_select hr (not_lt.mp hneg) hsets]

lemma touches_walkThrough (t : ETransfer) (io : WalkIo) :
    Touches {p | p ∈ (t.listened io).tcpSockets} (t.listened io) (t.walkThrough io) := by
  rcases walkThrough_eq t io with heq | ⟨r, sets, -, -, heq⟩
  · rw [heq]
    exact .refl _ _
  · rw [heq]
    exact touches_procTcpSocket _ sets

lemma hasAvailableSockets_nil (t : ETransfer) (poll : Poll) (src : List Upoll) :
    t.hasAvailableSockets poll [] src =
      (src.flatMap (t.available poll), (src.flatMap (t.available poll)).length) := by
  rw [hasAvailableSockets, List.nil_append]

/-- Polls that change no socket find what one of them finds: `select` polls again only while there
is nothing, and the last poll decides. -/
lemma pollLoop_spec (t : ETransfer) (polls : ℕ → Poll) (src : List Upoll) (waitRet k : ℕ) :
    ∃ k', (t.pollLoop polls src waitRet k []).1 = src.flatMap (t.available (polls k')) ∧
      (t.pollLoop polls src waitRet k []).2 = (src.flatMap (t.available (polls k'))).length := by
  induction waitRet generalizing k with
  | zero =>
      rw [pollLoop, hasAvailableSockets_nil]
      exact ⟨k, rfl, rfl⟩
  | succ waitRet ih =>
      rw [pollLoop, hasAvailableSockets_nil]
      simp only [List.length_eq_zero_iff]
      split_ifs with hfound
      · rw [hfound]
        exact ih (k + 1)
      · exact ⟨k, rfl, rfl⟩

/-- **`select`** gives the events that one of its polls finds, and a result that is
positive when there are any. -/
lemma select_spec (t : ETransfer) (polls : ℕ → Poll) (src : List Upoll) :
    Touches ∅ t (t.select polls src).1 ∧
      (∃ k, (t.select polls src).2.1 = src.flatMap (t.available (polls k))) ∧
      (0 < (t.select polls src).2.2 ↔ (t.select polls src).2.1 ≠ []) := by
  rw [select, hasAvailableSockets_nil]
  simp only [List.length_pos_iff]
  split_ifs with hfound
  · exact ⟨.refl _ t, ⟨0, rfl⟩, fun _ => hfound, fun _ => Nat.one_pos⟩
  · have htouch := touches_setNeeds t src
    obtain ⟨k, hdst, hres⟩ := pollLoop_spec (t.setNeeds src) polls src 1 1
    rw [not_not.mp hfound]
    refine ⟨htouch, ⟨k, ?_⟩, ?_⟩
    · rw [hdst]
      exact List.flatMap_congr fun it _ => htouch.available (Set.notMem_empty _) _
    · rw [hdst, hres]
      exact List.length_pos_iff

/-! ### A new connection -/

/-- The kernel and the allocator give what is not in use: a descriptor that is not open, and an
address with no socket behind it. -/
structure Fresh (t : ETransfer) (io : WalkIo) : Prop where
  accept : ∀ newSock, io.accept = some newSock → t.conn newSock = none
  addr : t.sockets io.addr = none

/-- `walk_through` listens: nothing happens, or the first connection is accepted. -/
lemma listened_cases (t : ETransfer) (io : WalkIo) :
    t.listened io = t ∨
      ∃ (newSock : ℕ) (c : ℕ) (rest : List ℕ), t.backlog = c :: rest ∧
        io.accept = some newSock ∧ t.listened io = t.newSocket io newSock c rest := by
  have hproc : t.procTcpListenSock io = t ∨
      ∃ (newSock : ℕ) (c : ℕ) (rest : List ℕ), t.backlog = c :: rest ∧
        io.accept = some newSock ∧ t.procTcpListenSock io = t.newSocket io newSock c rest := by
    rw [procTcpListenSock]
    split
    · next c rest newSock hlog hacc => exact .inr ⟨newSock, c, rest, hlog, hacc, rfl⟩
    · exact .inl rfl
  rw [listened]
  split
  · split_ifs
    · exact hproc
    · exact .inl rfl
  · exact .inl rfl

/-- The connection that the kernel offers is accepted. -/
lemma listened_of_ready {t : ETransfer} {io : WalkIo} {r : Ready} {newSock c : ℕ}
    {rest : List ℕ} (hsock : 0 ≤ t.mTcpSock) (hr : io.ready = some r)
    (hready : r.rset t.mTcpSock = true) (hlog : t.backlog = c :: rest)
    (hacc : io.accept = some newSock) :
    t.listened io = t.newSocket io newSock c rest := by
  rw [listened, hr]
  simp only [hsock, hready, and_self, if_true]
  rw [procTcpListenSock, hlog, hacc]

section NewSocket

variable {t : ETransfer} {io : WalkIo} {newSock : ℤ} {c : ℕ} {rest : List ℕ}

/-- The new socket has the connection. -/
lemma connOf_newSocket : (t.newSocket io newSock c rest).connOf io.addr = some c := by
  simp [connOf, newSocket, UTcpSocket.bind]

/-- The other sockets are as they were. -/
lemma sockets_newSocket {p : Ptr} (hp : p ≠ io.addr) :
    (t.newSocket io newSock c rest).sockets p = t.sockets p := by
  simp [newSocket, hp]

lemma connOf_newSocket_of_ne {p : Ptr} (hp : p ≠ io.addr) (hfree : t.conn newSock = none)
    {d : ℕ} (h : t.connOf p = some d) :
    (t.newSocket io newSock c rest).connOf p = some d := by
  rw [connOf, Option.bind_eq_some_iff] at h ⊢
  obtain ⟨u, hu, hconn⟩ := h
  refine ⟨u, by rw [sockets_newSocket hp, hu], ?_⟩
  have hne : u.mSock ≠ newSock := by
    rintro heq
    rw [heq, hfree] at hconn
    cases hconn
  simp [newSocket, hne, hconn]

lemma mem_tcpSockets_newSocket {p : Ptr}
    (hp : p ∈ (t.newSocket io newSock c rest).tcpSockets) : p ∈ t.tcpSockets ∨ p = io.addr := by
  obtain ⟨fd, hfd⟩ := mem_tcpSockets.mp hp
  rw [newSocket, Std.TreeMap.getElem?_insert] at hfd
  split_ifs at hfd
  · exact .inr (Option.some.inj hfd).symm
  · exact .inl (mem_tcpSockets.mpr ⟨fd, hfd⟩)

end NewSocket

/-- A socket that was there keeps its place and its connection. -/
lemma connOf_listened {t : ETransfer} {io : WalkIo} (hfresh : t.Fresh io) {p : Ptr} {c : ℕ}
    (h : t.connOf p = some c) : (t.listened io).connOf p = some c := by
  rcases t.listened_cases io with heq | ⟨newSock, d, rest, -, hacc, heq⟩
  · rw [heq]
    exact h
  · rw [heq]
    refine connOf_newSocket_of_ne ?_ (hfresh.accept newSock hacc) h
    rintro rfl
    rw [connOf, hfresh.addr] at h
    cases h

/-- A socket that was there is as it was. -/
lemma sockets_listened {t : ETransfer} {io : WalkIo} (hfresh : t.Fresh io) {p : Ptr}
    (h : (t.sockets p).isSome) : (t.listened io).sockets p = t.sockets p := by
  rcases t.listened_cases io with heq | ⟨newSock, c, rest, -, -, heq⟩
  · rw [heq]
  · rw [heq]
    refine sockets_newSocket ?_
    rintro rfl
    rw [hfresh.addr] at h
    cases h

/-- At most one socket is new on the accept list. -/
lemma accepts_listened {t : ETransfer} {io : WalkIo} (h : t.mTcpAcceptList = []) :
    (t.listened io).mTcpAcceptList = [] ∨
      (t.listened io).mTcpAcceptList = [io.addr] ∧ ((t.listened io).sockets io.addr).isSome := by
  rcases t.listened_cases io with heq | ⟨newSock, c, rest, -, -, heq⟩
  · rw [heq]
    exact .inl h
  · rw [heq]
    exact .inr ⟨by simp [newSocket, h], by simp [newSocket]⟩

lemma connOf_walkThrough {t : ETransfer} {io : WalkIo} (hfresh : t.Fresh io) {p : Ptr} {c : ℕ}
    (h : t.connOf p = some c) : (t.walkThrough io).connOf p = some c := by
  rw [(touches_walkThrough t io).connOf]
  exact connOf_listened hfresh h

lemma sock_walkThrough {t : ETransfer} {io : WalkIo} (hfresh : t.Fresh io) {p : Ptr}
    (h : (t.sockets p).isSome) :
    ((t.walkThrough io).sock p).mSock = (t.sock p).mSock ∧
      ((t.walkThrough io).sockets p).isSome := by
  have htouch := touches_walkThrough t io
  have hsame := sockets_listened hfresh h
  refine ⟨?_, ?_⟩
  · rw [htouch.sock_mSock, sock, hsame, sock]
  · rw [htouch.isSome, hsame]
    exact h

/-- A socket for which the kernel reports no error is in error only if it was. -/
lemma not_isError_walkThrough {t : ETransfer} {io : WalkIo} (hfresh : t.Fresh io) {p : Ptr}
    (h : (t.sockets p).isSome) (hsound : (t.sock p).isError = false)
    (hquiet : ∀ r, io.ready = some r → r.eset (t.sock p).mSock = false) :
    ((t.walkThrough io).sock p).isError = false := by
  have hsame : (t.listened io).sock p = t.sock p := by
    rw [sock, sockets_listened hfresh h, sock]
  rcases walkThrough_eq t io with heq | ⟨r, sets, hr, hsets, heq⟩
  · rw [heq, hsame]
    exact hsound
  · rw [heq]
    refine not_isError_procTcpSocket ?_ ?_
    · rw [hsame]
      intro hc
      exact Bool.false_ne_true ((hquiet r hr).symm.trans (hsets _ hc))
    · rw [hsame]
      exact hsound

/-! ### The listener -/

/-- A transfer that listens and has no connection yet. -/
def opened (tcpSock : ℕ) (listener : Ptr) (reason : ℤ) : ETransfer where
  mTcpSock := tcpSock
  mTcpListener := listener
  mTcpMap := ∅
  mTcpAcceptList := []
  mDestroyList := []
  sockets p := if p = listener then some (.new reason) else none
  backlog := []
  conn _ := none
  arrived := 0
  sent _ := []

/-- The port is open, and its listener is no connection and not in error. -/
structure Listening (t : ETransfer) : Prop where
  port : 0 ≤ t.mTcpSock
  listener : (t.sockets t.mTcpListener).isSome
  sound : (t.sock t.mTcpListener).isError = false
  apart : t.mTcpListener ∉ t.tcpSockets

namespace Listening

variable {t t' : ETransfer}

/-- Calls on connections leave the listener alone, as none of them has its address. -/
lemma touches {S : Set Ptr} (h : t.Listening) (ht : Touches S t t') (hS : t.mTcpListener ∉ S) :
    t'.Listening where
  port := by
    rw [ht.mTcpSock]
    exact h.port
  listener := by
    rw [ht.mTcpListener, ht.isSome]
    exact h.listener
  sound := by
    rw [UTcpSocket.isError, ht.mTcpListener, ht.sock_mStatus hS]
    exact h.sound
  apart := by
    rw [ht.mTcpListener, tcpSockets, ht.mTcpMap]
    exact h.apart

lemma ne_addr (h : t.Listening) {io : WalkIo} (hfresh : t.Fresh io) :
    t.mTcpListener ≠ io.addr := by
  intro heq
  have hsome := h.listener
  rw [heq, hfresh.addr] at hsome
  cases hsome

lemma listened (h : t.Listening) {io : WalkIo} (hfresh : t.Fresh io) :
    (t.listened io).Listening ∧ (t.listened io).mTcpListener = t.mTcpListener := by
  rcases t.listened_cases io with heq | ⟨newSock, c, rest, -, -, heq⟩
  · rw [heq]
    exact ⟨h, rfl⟩
  · rw [heq]
    have hne := h.ne_addr hfresh
    refine ⟨⟨h.port, ?_, ?_, fun hc => ?_⟩, rfl⟩
    · exact (congrArg Option.isSome (sockets_newSocket hne)).trans h.listener
    · have hsock : (t.newSocket io newSock c rest).sock t.mTcpListener = t.sock t.mTcpListener := by
        rw [sock, sockets_newSocket hne, sock]
      exact (congrArg UTcpSocket.isError hsock).trans h.sound
    · exact (mem_tcpSockets_newSocket hc).elim h.apart hne

lemma walkThrough (h : t.Listening) {io : WalkIo} (hfresh : t.Fresh io) :
    (t.walkThrough io).Listening ∧ (t.walkThrough io).mTcpListener = t.mTcpListener := by
  obtain ⟨hlist, heq⟩ := h.listened hfresh
  have htouch := touches_walkThrough t io
  exact ⟨hlist.touches htouch hlist.apart, htouch.mTcpListener.trans heq⟩

/-- What a poll finds for the listener: that there is a socket to hand out. -/
lemma available (h : t.Listening) (poll : Poll) {it : Upoll} (hit : it.usock = t.mTcpListener)
    (hevents : it.events = upollReadT) :
    t.available poll it = if t.mTcpAcceptList = [] then [] else [it] := by
  obtain ⟨hread, hwrite, -⟩ := Upoll.has_of_read hevents
  have hself : { it with events := upollReadT } = it := by rw [← hevents]
  rw [ETransfer.available, hit, h.sound]
  simp only [hread, hwrite, Bool.false_eq_true, if_false, if_true, Bool.false_and, Bool.true_and,
    List.nil_append, Bool.not_eq_true', List.isEmpty_eq_false_iff]
  rw [ite_not, ← hit, hself]

end Listening

end ETransfer

end Epbs
