/-
The books of `eTransfer` about its connections: `m_tcp_map`, `m_tcp_accept_list` and
`m_destroy_list`, over any order of its calls.

* `ETransfer.closeSocket`, `Connections`: `UTcpSocket::close`, and a transfer with the history
  of the sockets it handed out and of the connections it closed;
* `doDestroySockets`, `connMachine`: `do_destroy_sockets`, which never empties its list, and
  the calls in any order;
* `Sound`: a socket that was handed out is in the map under its descriptor, or its connection
  was closed and it has no descriptor any more;
* `Bookkept`, `bookkept_of_reach`: the books in every state reached.
-/
import Epbs.Machine.Guarded
import Epbs.Transfer.Calls

namespace Epbs

open ETransfer

/-! ### The calls -/

/-- `UTcpSocket::close`. -/
def ETransfer.closeSocket (t : ETransfer) (p : Ptr) : ETransfer :=
  if 0 ≤ (t.sock p).mSock then
    { (t.setSock p fun s => { s with mStatus := .closed, mSock := -1 }) with
      conn := Function.update t.conn (t.sock p).mSock none }
  else t

/-- A transfer with its history: the sockets that `accept` returned, with the connection each
had then, and for each `::close` the connection of the descriptor that it closed. -/
structure Connections where
  transfer : ETransfer
  handed : List (Ptr × Option ℕ)
  closed : List (Option ℕ)

namespace Connections

/-- `close`, noted in the history if it closes a descriptor. -/
def close (p : Ptr) (s : Connections) : Connections :=
  { s with
    transfer := s.transfer.closeSocket p
    closed := s.closed ++
      if 0 ≤ (s.transfer.sock p).mSock then [s.transfer.conn (s.transfer.sock p).mSock] else [] }

/-- `m_tcp_map.erase(usock->m_sock)`. -/
def eraseKey (p : Ptr) (s : Connections) : Connections :=
  { s with
    transfer := { s.transfer with
      mTcpMap := s.transfer.mTcpMap.erase (s.transfer.sock p).mSock } }

/-- The body of the loop of `do_destroy_sockets`. -/
def destroyOne (s : Connections) (p : Ptr) : Connections := (s.eraseKey p).close p

/-- **`do_destroy_sockets`.**  The list stays as it is. -/
def doDestroySockets (s : Connections) : Connections :=
  s.transfer.mDestroyList.foldl destroyOne s

end Connections

/-- The calls, and the clients that connect. -/
inductive ConnAct where
  | arrive
  | walkThrough (io : WalkIo)
  | select (polls : ℕ → Poll) (src : List Upoll)
  | accept (usocket : Option Ptr)
  | destroySocket (p : Ptr)
  | doDestroySockets

namespace Connections

/-- `accept`, noted in the history. -/
def accept (usocket : Option Ptr) (s : Connections) : Connections :=
  { s with
    transfer := (s.transfer.accept usocket).1
    handed := s.handed ++
      (s.transfer.accept usocket).2.toList.map fun p => (p, s.transfer.connOf p) }

/-- A call. -/
def call : ConnAct → Connections → Connections
  | .arrive, s => { s with transfer := s.transfer.arrive }
  | .walkThrough io, s => { s with transfer := s.transfer.walkThrough io }
  | .select polls src, s => { s with transfer := (s.transfer.select polls src).1 }
  | .accept usocket, s => s.accept usocket
  | .destroySocket p, s => { s with transfer := s.transfer.destroySocket p }
  | .doDestroySockets, s => s.doDestroySockets

/-- The kernel accepts as a descriptor that is not open, and only sockets that `accept`
returned are destroyed. -/
def Lawful (s : Connections) : ConnAct → Prop
  | .walkThrough io => s.transfer.Fresh io
  | .destroySocket p => p ∈ s.handed.map (·.1)
  | .arrive | .select .. | .accept _ | .doDestroySockets => True

end Connections

/-- **The calls in any order.** -/
def connMachine (tcpSock : ℕ) (listener : Ptr) (reason : ℤ) : Machine Connections ConnAct where
  init := ⟨opened tcpSock listener reason, [], []⟩
  step a s := some (s.call a)

/-! ### The invariant -/

namespace ETransfer

/-- A call that changes statuses and flags only: the maps, the lists and the descriptors are as
before. -/
structure SameBooks (t t' : ETransfer) : Prop extends Touches Set.univ t t' where
  mDestroyList : t'.mDestroyList = t.mDestroyList
  arrived : t'.arrived = t.arrived

namespace SameBooks

variable {t t' : ETransfer}

protected lemma refl (t : ETransfer) : SameBooks t t := ⟨.refl _ t, rfl, rfl⟩

/-- A fold of updates of sockets leaves the list of destroyed sockets alone. -/
lemma foldl_setSock {α : Type*} (f : α → Ptr) (g : α → UTcpSocket → UTcpSocket)
    (hg : ∀ x s, (g x s).mSock = s.mSock) (xs : List α) (t : ETransfer) :
    SameBooks t (xs.foldl (fun t x => t.setSock (f x) (g x)) t) := by
  refine ⟨Touches.foldl xs (fun t x _ => .setSock t (hg x) fun hc => ?_) t, ?_, ?_⟩
  · exact absurd (Set.mem_univ (f x)) hc
  · induction xs generalizing t with
    | nil => rfl
    | cons x xs ih => exact ih _
  · induction xs generalizing t with
    | nil => rfl
    | cons x xs ih => exact ih _

end SameBooks

lemma sameBooks_setNeeds (t : ETransfer) (src : List Upoll) : SameBooks t (t.setNeeds src) :=
  .foldl_setSock (fun it : Upoll => it.usock)
    (fun (it : Upoll) s => { s with
      mBneedreadselect := it.has upollReadT
      mBneedwriteselect := it.has upollWriteT })
    (fun _ _ => rfl) src t

lemma sameBooks_select (t : ETransfer) (polls : ℕ → Poll) (src : List Upoll) :
    SameBooks t (t.select polls src).1 := by
  rw [select]
  simp only
  split_ifs
  · exact .refl t
  · exact sameBooks_setNeeds t src

/-- The part of `walk_through` after the listening. -/
lemma sameBooks_walked (t : ETransfer) (io : WalkIo) :
    SameBooks (t.listened io) (t.walkThrough io) := by
  rcases walkThrough_eq t io with heq | ⟨r, sets, -, -, heq⟩
  · rw [heq]
    exact .refl _
  · rw [heq]
    refine .foldl_setSock id (fun _ => procSocket sets) (fun _ s => ?_) _ _
    rw [procSocket]
    split_ifs <;> rfl

end ETransfer

namespace Connections

/-- **What stays true of the books.** A connection is in the log of the listener, in the accept list
or handed out, in the order of its arrival, and each socket that was handed out has its connection
until it is closed, once. -/
structure Sound (s : Connections) : Prop where
  entries : ∀ (fd : ℤ) (p : Ptr), s.transfer.mTcpMap[fd]? = some p →
    0 ≤ fd ∧ (s.transfer.sockets p).map (·.mSock) = some fd ∧ (s.transfer.conn fd).isSome
  accepts : ∀ p ∈ s.transfer.mTcpAcceptList, ∃ fd : ℤ, s.transfer.mTcpMap[fd]? = some p
  order : s.handed.map (·.2) ++ s.transfer.mTcpAcceptList.map s.transfer.connOf ++
    s.transfer.backlog.map some = (List.range s.transfer.arrived).map some
  pointers : (s.handed.map (·.1) ++ s.transfer.mTcpAcceptList).Nodup
  owned : ∀ h ∈ s.handed,
    ((s.transfer.sockets h.1).map (·.mSock) = some (-1) ∧ h.2 ∈ s.closed) ∨
      ((∃ fd : ℤ, s.transfer.mTcpMap[fd]? = some h.1) ∧ s.transfer.connOf h.1 = h.2)
  destroyed : ∀ p ∈ s.transfer.mDestroyList, p ∈ s.handed.map (·.1)
  closed_once : s.closed.Nodup
  closed_destroyed : ∀ c ∈ s.closed, ∃ p, (p, c) ∈ s.handed ∧ p ∈ s.transfer.mDestroyList ∧
    (s.transfer.sockets p).map (·.mSock) = some (-1)

lemma sound_init (tcpSock : ℕ) (listener : Ptr) (reason : ℤ) :
    (connMachine tcpSock listener reason).init.Sound where
  entries fd p hp := by simp [connMachine, opened] at hp
  accepts p hp := absurd hp List.not_mem_nil
  order := rfl
  pointers := .nil
  owned h hh := absurd hh List.not_mem_nil
  destroyed p hp := absurd hp List.not_mem_nil
  closed_once := .nil
  closed_destroyed c hc := absurd hc List.not_mem_nil

namespace Sound

variable {s : Connections}

/-- A call that changes statuses and flags only keeps the books. -/
lemma same (h : s.Sound) {t : ETransfer} (ht : SameBooks s.transfer t) :
    Sound { s with transfer := t } where
  entries fd p hp := by
    rw [ht.mTcpMap] at hp
    rw [ht.mSock, ht.conn]
    exact h.entries fd p hp
  accepts p hp := by
    rw [ht.mTcpAcceptList] at hp
    rw [ht.mTcpMap]
    exact h.accepts p hp
  order := by
    have hconn : t.connOf = s.transfer.connOf := funext ht.connOf
    rw [ht.mTcpAcceptList, ht.backlog, ht.arrived, hconn]
    exact h.order
  pointers := by
    rw [ht.mTcpAcceptList]
    exact h.pointers
  owned h' hh' := by
    rw [ht.mSock, ht.mTcpMap, ht.connOf]
    exact h.owned h' hh'
  destroyed p hp := by
    rw [ht.mDestroyList] at hp
    exact h.destroyed p hp
  closed_once := h.closed_once
  closed_destroyed c hc := by
    obtain ⟨p, hp, hmem, hsock⟩ := h.closed_destroyed c hc
    refine ⟨p, hp, ?_, ?_⟩
    · rw [ht.mDestroyList]
      exact hmem
    · rw [ht.mSock]
      exact hsock

/-- A client connects. -/
lemma arrive (h : s.Sound) : Sound { s with transfer := s.transfer.arrive } :=
  { h with
    order := by
      show s.handed.map (·.2) ++ s.transfer.mTcpAcceptList.map s.transfer.connOf ++
        (s.transfer.backlog ++ [s.transfer.arrived]).map some =
          (List.range (s.transfer.arrived + 1)).map some
      rw [List.map_append, ← List.append_assoc, h.order, List.range_succ, List.map_append] }

/-- The connection of a socket in the map. -/
lemma connOf_eq (h : s.Sound) {fd : ℤ} {p : Ptr} (hp : s.transfer.mTcpMap[fd]? = some p) :
    s.transfer.connOf p = s.transfer.conn fd := by
  obtain ⟨u, hu, rfl⟩ := Option.map_eq_some_iff.mp (h.entries fd p hp).2.1
  rw [connOf, hu, Option.bind_some]

/-- A socket is in the map once. -/
lemma key_unique (h : s.Sound) {fd fd' : ℤ} {p : Ptr} (hp : s.transfer.mTcpMap[fd]? = some p)
    (hp' : s.transfer.mTcpMap[fd']? = some p) : fd = fd' :=
  Option.some.inj ((h.entries fd p hp).2.1.symm.trans (h.entries fd' p hp').2.1)

/-- A socket that the books name is an object. -/
lemma isSome_of_mem (h : s.Sound) {p : Ptr}
    (hp : p ∈ s.handed.map (·.1) ++ s.transfer.mTcpAcceptList) :
    (s.transfer.sockets p).isSome := by
  have hmapped : (∃ fd : ℤ, s.transfer.mTcpMap[fd]? = some p) →
      (s.transfer.sockets p).isSome := by
    rintro ⟨fd, hfd⟩
    obtain ⟨u, hu, -⟩ := Option.map_eq_some_iff.mp (h.entries fd p hfd).2.1
    exact Option.isSome_of_eq_some hu
  rcases List.mem_append.mp hp with hhanded | haccept
  · obtain ⟨h', hh', rfl⟩ := List.mem_map.mp hhanded
    rcases h.owned h' hh' with ⟨hsock, -⟩ | ⟨hin, -⟩
    · obtain ⟨u, hu, -⟩ := Option.map_eq_some_iff.mp hsock
      exact Option.isSome_of_eq_some hu
    · exact hmapped hin
  · exact hmapped (h.accepts p haccept)

section NewSocket

variable {io : WalkIo} {newSock c : ℕ} {rest : List ℕ}

/-- An object is not at the address of a new one. -/
lemma ne_addr (hfresh : s.transfer.Fresh io) {p : Ptr} (hp : (s.transfer.sockets p).isSome) :
    p ≠ io.addr := by
  rintro rfl
  rw [hfresh.addr] at hp
  cases hp

/-- The sockets of the map stay there, with their connections, when a new one comes. -/
lemma newSocket_other (h : s.Sound) (hfresh : s.transfer.Fresh io)
    (hacc : io.accept = some newSock) {fd : ℤ} {p : Ptr}
    (hp : s.transfer.mTcpMap[fd]? = some p) (c : ℕ) (rest : List ℕ) :
    p ≠ io.addr ∧ (newSock : ℤ) ≠ fd ∧
      (s.transfer.newSocket io newSock c rest).mTcpMap[fd]? = some p ∧
      (s.transfer.newSocket io newSock c rest).connOf p = s.transfer.connOf p := by
  obtain ⟨-, hsock, hopen⟩ := h.entries fd p hp
  have hfree := hfresh.accept newSock hacc
  have haddr : p ≠ io.addr := by
    obtain ⟨u, hu, -⟩ := Option.map_eq_some_iff.mp hsock
    exact ne_addr hfresh (Option.isSome_of_eq_some hu)
  have hunused : (newSock : ℤ) ≠ fd := by
    rintro rfl
    rw [hfree] at hopen
    cases hopen
  refine ⟨haddr, hunused, ?_, ?_⟩
  · rw [ETransfer.newSocket, Std.TreeMap.getElem?_insert,
      if_neg (mt Std.LawfulEqCmp.compare_eq_iff_eq.mp hunused)]
    exact hp
  · obtain ⟨d, hd⟩ := Option.isSome_iff_exists.mp hopen
    have hold : s.transfer.connOf p = some d := (h.connOf_eq hp).trans hd
    rw [hold]
    exact connOf_newSocket_of_ne haddr hfree hold

/-- The new connection is the next in order. -/
lemma order_newSocket (h : s.Sound) (hfresh : s.transfer.Fresh io)
    (hacc : io.accept = some newSock) (hlog : s.transfer.backlog = c :: rest) :
    s.handed.map (·.2) ++ (s.transfer.mTcpAcceptList ++ [io.addr]).map
      (s.transfer.newSocket io newSock c rest).connOf ++ rest.map some =
        (List.range s.transfer.arrived).map some := by
  have hold : s.transfer.mTcpAcceptList.map (s.transfer.newSocket io newSock c rest).connOf =
      s.transfer.mTcpAcceptList.map s.transfer.connOf := by
    refine List.map_congr_left fun p hp => ?_
    obtain ⟨fd, hfd⟩ := h.accepts p hp
    exact (h.newSocket_other hfresh hacc hfd c rest).2.2.2
  have horder := h.order
  rw [hlog, List.map_cons] at horder
  rw [List.map_append, hold, List.map_singleton, connOf_newSocket]
  simpa [List.append_assoc] using horder

/-- **A new connection** goes into the books. Its address and its descriptor are new, so that what
the books say of the others does not change. -/
lemma newSocket (h : s.Sound) (hfresh : s.transfer.Fresh io)
    (hlog : s.transfer.backlog = c :: rest) (hacc : io.accept = some newSock) :
    Sound { s with transfer := s.transfer.newSocket io newSock c rest } := by
  have hhanded : ∀ h' ∈ s.handed, h'.1 ≠ io.addr := fun h' hh' =>
    ne_addr hfresh (h.isSome_of_mem (List.mem_append_left _ (List.mem_map_of_mem hh')))
  refine ⟨fun fd p hp => ?_, fun p hp => ?_, h.order_newSocket hfresh hacc hlog, ?_,
    fun h' hh' => ?_, h.destroyed, h.closed_once, fun d hd => ?_⟩
  · simp only [ETransfer.newSocket, Std.TreeMap.getElem?_insert] at hp
    split_ifs at hp with heq
    · obtain rfl := Std.LawfulEqCmp.compare_eq_iff_eq.mp heq
      obtain rfl := Option.some.inj hp
      refine ⟨Int.natCast_nonneg _, ?_, ?_⟩
      · simp [ETransfer.newSocket, UTcpSocket.bind]
      · simp [ETransfer.newSocket]
    · obtain ⟨hpos, hsock, hopen⟩ := h.entries fd p hp
      obtain ⟨haddr, hunused, -⟩ := h.newSocket_other hfresh hacc hp c rest
      refine ⟨hpos, ?_, ?_⟩
      · simp only
        rw [sockets_newSocket haddr]
        exact hsock
      · simpa [ETransfer.newSocket, hunused.symm] using hopen
  · rcases List.mem_append.mp hp with hold | hnew
    · obtain ⟨fd, hfd⟩ := h.accepts p hold
      exact ⟨fd, (h.newSocket_other hfresh hacc hfd c rest).2.2.1⟩
    · rw [List.mem_singleton.mp hnew]
      exact ⟨newSock, by rw [ETransfer.newSocket, Std.TreeMap.getElem?_insert_self]⟩
  · -- the socket waits behind all others, and was never handed out
    show (s.handed.map (·.1) ++ (s.transfer.mTcpAcceptList ++ [io.addr])).Nodup
    rw [← List.append_assoc]
    refine List.Nodup.append h.pointers (List.nodup_singleton _) ?_
    intro p hp hp'
    exact ne_addr hfresh (h.isSome_of_mem hp) (List.mem_singleton.mp hp')
  · rcases h.owned h' hh' with ⟨hsock, hclosed⟩ | ⟨⟨fd, hfd⟩, hown⟩
    · refine .inl ⟨?_, hclosed⟩
      simp only
      rw [sockets_newSocket (hhanded h' hh')]
      exact hsock
    · obtain ⟨-, -, hin, hconn⟩ := h.newSocket_other hfresh hacc hfd c rest
      exact .inr ⟨⟨fd, hin⟩, hconn.trans hown⟩
  · obtain ⟨p, hp, hmem, hsock⟩ := h.closed_destroyed d hd
    refine ⟨p, hp, hmem, ?_⟩
    simp only
    rw [sockets_newSocket (hhanded _ hp)]
    exact hsock

end NewSocket

/-- The walk keeps the books. -/
lemma walkThrough (h : s.Sound) {io : WalkIo} (hfresh : s.transfer.Fresh io) :
    Sound { s with transfer := s.transfer.walkThrough io } := by
  have hlistened : Sound { s with transfer := s.transfer.listened io } := by
    rcases s.transfer.listened_cases io with heq | ⟨newSock, c, rest, hlog, hacc, heq⟩
    · rw [heq]
      exact h
    · rw [heq]
      exact h.newSocket hfresh hlog hacc
  exact hlistened.same (sameBooks_walked s.transfer io)

/-- The first socket that waits is handed out. -/
lemma handOut (h : s.Sound) {p : Ptr} {rest : List Ptr}
    (hlist : s.transfer.mTcpAcceptList = p :: rest) :
    Sound { s with
      transfer := { s.transfer with mTcpAcceptList := rest }
      handed := s.handed ++ [(p, s.transfer.connOf p)] } where
  entries := h.entries
  accepts q hq := h.accepts q (hlist ▸ List.mem_cons_of_mem p hq)
  order := by
    have horder := h.order
    rw [hlist, List.map_cons] at horder
    rw [List.map_append, List.map_singleton, List.append_assoc _ [_], List.singleton_append]
    exact horder
  pointers := by
    have hpointers := h.pointers
    rw [hlist] at hpointers
    rw [List.map_append, List.map_singleton, List.append_assoc, List.singleton_append]
    exact hpointers
  owned h' hh' := by
    rcases List.mem_append.mp hh' with hold | hnew
    · exact h.owned h' hold
    · rw [List.mem_singleton.mp hnew]
      exact .inr ⟨h.accepts p (hlist ▸ List.mem_cons_self), rfl⟩
  destroyed q hq := by
    rw [List.map_append]
    exact List.mem_append_left _ (h.destroyed q hq)
  closed_once := h.closed_once
  closed_destroyed c hc := by
    obtain ⟨q, hq, hmem, hsock⟩ := h.closed_destroyed c hc
    exact ⟨q, List.mem_append_left _ hq, hmem, hsock⟩

/-- **`accept`** hands out the first socket that waits, or none. -/
lemma accept (h : s.Sound) (usocket : Option Ptr) : (s.accept usocket).Sound := by
  have hnone : Sound { s with handed := s.handed ++ [] } := by
    rw [List.append_nil]
    exact h
  rw [Connections.accept, ETransfer.accept]
  split_ifs with hlistener
  · cases hlist : s.transfer.mTcpAcceptList with
    | nil => exact hnone
    | cons p rest =>
        refine (h.handOut hlist).same ?_
        exact .foldl_setSock id (fun _ s => { s with mStatus := .connected }) (fun _ _ => rfl) [p] _
  · exact hnone

/-- **`destroy_socket`** of a socket that was handed out. -/
lemma destroySocket (h : s.Sound) {p : Ptr} (hp : p ∈ s.handed.map (·.1)) :
    Sound { s with transfer := s.transfer.destroySocket p } := by
  have hlisted : Sound { s with
      transfer := { s.transfer with mDestroyList := s.transfer.mDestroyList ++ [p] } } :=
    { h with
      destroyed := fun q hq => by
        rcases List.mem_append.mp hq with hold | hnew
        · exact h.destroyed q hold
        · rw [List.mem_singleton.mp hnew]
          exact hp
      closed_destroyed := fun c hc => by
        obtain ⟨q, hq, hmem, hsock⟩ := h.closed_destroyed c hc
        exact ⟨q, hq, List.mem_append_left _ hmem, hsock⟩ }
  exact hlisted.same
    (.foldl_setSock id (fun _ s => { s with mStatus := .closed }) (fun _ _ => rfl) [p] _)

/-! ### `do_destroy_sockets` -/

/-- The connections handed out are different ones. -/
lemma handed_unique (h : s.Sound) {p q : Ptr} {c : Option ℕ} (hp : (p, c) ∈ s.handed)
    (hq : (q, c) ∈ s.handed) : p = q := by
  have hnodup : (s.handed.map (·.2)).Nodup := by
    have hall : (s.handed.map (·.2) ++ s.transfer.mTcpAcceptList.map s.transfer.connOf ++
        s.transfer.backlog.map some).Nodup := by
      rw [h.order]
      exact List.nodup_range.map (Option.some_injective ℕ)
    exact (List.nodup_append.mp (List.nodup_append.mp hall).1).1
  exact congrArg Prod.fst (List.inj_on_of_nodup_map hnodup hp hq rfl)

/-- A socket that waits was not handed out. -/
lemma accept_ne (h : s.Sound) {p q : Ptr} {c : Option ℕ} (hp : (p, c) ∈ s.handed)
    (hq : q ∈ s.transfer.mTcpAcceptList) : q ≠ p := by
  rintro rfl
  have hdisjoint := (List.nodup_append.mp h.pointers).2.2
  exact hdisjoint q (List.mem_map_of_mem hp) q hq rfl

end Sound

/-- The socket at an address has no descriptor any more. -/
def NoSock (s : Connections) (p : Ptr) : Prop :=
  (s.transfer.sockets p).map (·.mSock) = some (-1)

lemma mSock_sock {t : ETransfer} {p : Ptr} {fd : ℤ}
    (h : (t.sockets p).map (·.mSock) = some fd) : (t.sock p).mSock = fd := by
  obtain ⟨u, hu, rfl⟩ := Option.map_eq_some_iff.mp h
  rw [sock, hu, Option.getD_some]

/-- Without a descriptor there is nothing to close. -/
lemma destroyOne_of_noSock {s : Connections} {p : Ptr} (h : s.NoSock p) :
    s.destroyOne p =
      { s with transfer := { s.transfer with mTcpMap := s.transfer.mTcpMap.erase (-1) } } := by
  have hsock : ((s.eraseKey p).transfer.sock p).mSock = -1 := mSock_sock h
  have hkey : (s.transfer.sock p).mSock = -1 := mSock_sock h
  rw [destroyOne, close, closeSocket, hsock, if_neg (by norm_num), if_neg (by norm_num),
    List.append_nil, eraseKey, hkey]

/-- A socket loses its descriptor: the key is erased, and the descriptor closed. -/
def release (p : Ptr) (fd : ℤ) (s : Connections) : Connections :=
  { s with
    transfer :=
      { (s.transfer.setSock p fun s => { s with mStatus := .closed, mSock := -1 }) with
        mTcpMap := s.transfer.mTcpMap.erase fd
        conn := Function.update s.transfer.conn fd none }
    closed := s.closed ++ [s.transfer.conn fd] }

/-- A socket with a descriptor loses it. -/
lemma destroyOne_of_mSock {s : Connections} {p : Ptr} {fd : ℤ} (hpos : 0 ≤ fd)
    (h : (s.transfer.sockets p).map (·.mSock) = some fd) : s.destroyOne p = s.release p fd := by
  have hsock : ((s.eraseKey p).transfer.sock p).mSock = fd := mSock_sock h
  have hkey : (s.transfer.sock p).mSock = fd := mSock_sock h
  rw [destroyOne, close, closeSocket, hsock, if_pos hpos, if_pos hpos, eraseKey, hkey]
  rfl

section Release

variable {s : Connections} {p q : Ptr} {fd fd' : ℤ}

lemma noSock_release (h : (s.transfer.sockets p).isSome) : (s.release p fd).NoSock p := by
  obtain ⟨u, hu⟩ := Option.isSome_iff_exists.mp h
  rw [NoSock, release]
  simp only
  rw [sockets_setSock, if_pos rfl, hu]
  rfl

lemma sockets_release (hq : q ≠ p) :
    (s.release p fd).transfer.sockets q = s.transfer.sockets q := by
  rw [release]
  simp only
  rw [sockets_setSock, if_neg hq]

lemma mTcpMap_release :
    (s.release p fd).transfer.mTcpMap[fd']? =
      if fd = fd' then none else s.transfer.mTcpMap[fd']? := by
  rw [release]
  simp only
  rw [Std.TreeMap.getElem?_erase]
  exact if_congr Std.LawfulEqCmp.compare_eq_iff_eq rfl rfl

/-- The other sockets of the map stay there, with their connections. -/
lemma Sound.release_other (h : s.Sound) (hfd : s.transfer.mTcpMap[fd]? = some p) (hq : q ≠ p)
    (hfd' : s.transfer.mTcpMap[fd']? = some q) :
    (s.release p fd).transfer.mTcpMap[fd']? = some q ∧
      (s.release p fd).transfer.conn fd' = s.transfer.conn fd' ∧
      (s.release p fd).transfer.connOf q = s.transfer.connOf q := by
  have hne : fd' ≠ fd := by
    rintro rfl
    exact hq (Option.some.inj (hfd'.symm.trans hfd))
  have hconn : (s.release p fd).transfer.conn fd' = s.transfer.conn fd' :=
    Function.update_of_ne hne _ _
  refine ⟨by rw [mTcpMap_release, if_neg hne.symm, hfd'], hconn, ?_⟩
  obtain ⟨u, hu, heq⟩ := Option.map_eq_some_iff.mp (h.entries fd' q hfd').2.1
  rw [connOf, connOf, sockets_release hq, hu, Option.bind_some, Option.bind_some, heq, hconn]

end Release

/-- What `do_destroy_sockets` does to the sockets of a list: they have no descriptor afterwards, and
the list is kept, so that the next call passes over them. -/
structure Destroyed (ps : List Ptr) (s s' : Connections) : Prop where
  sound : s'.Sound
  handed : s'.handed = s.handed
  mDestroyList : s'.transfer.mDestroyList = s.transfer.mDestroyList
  kept : ∀ p, s.NoSock p → s'.NoSock p
  gone : ∀ p ∈ ps, s'.NoSock p

namespace Sound

variable {s : Connections}

/-- A socket without a descriptor is passed over. It was destroyed before, as a socket is closed
here only. -/
lemma destroyOne_closed (h : s.Sound) {p : Ptr} (hsock : s.NoSock p) :
    Destroyed [p] s (s.destroyOne p) := by
  rw [destroyOne_of_noSock hsock]
  -- there is no such key
  have hmap : ∀ fd : ℤ, (s.transfer.mTcpMap.erase (-1))[fd]? = s.transfer.mTcpMap[fd]? := by
    intro fd
    rw [Std.TreeMap.getElem?_erase]
    split_ifs with heq
    · obtain rfl := Std.LawfulEqCmp.compare_eq_iff_eq.mp heq
      cases hp : s.transfer.mTcpMap[(-1 : ℤ)]? with
      | none => rfl
      | some q =>
          have hpos := (h.entries _ q hp).1
          omega
    · rfl
  refine ⟨⟨fun fd q hq => h.entries fd q ((hmap fd).symm.trans hq), fun q hq => ?_, h.order,
    h.pointers, fun h' hh' => ?_, h.destroyed, h.closed_once, h.closed_destroyed⟩, rfl, rfl,
    fun _ hq => hq, fun q hq => List.mem_singleton.mp hq ▸ hsock⟩
  · obtain ⟨fd, hfd⟩ := h.accepts q hq
    exact ⟨fd, (hmap fd).trans hfd⟩
  · refine (h.owned h' hh').imp_right fun hin => ⟨?_, hin.2⟩
    obtain ⟨fd, hfd⟩ := hin.1
    exact ⟨fd, (hmap fd).trans hfd⟩

/-- The connections that wait stay in order when another one is closed. -/
lemma order_release (h : s.Sound) {p : Ptr} {c : Option ℕ} {fd : ℤ}
    (hfd : s.transfer.mTcpMap[fd]? = some p) (hhanded : (p, c) ∈ s.handed) :
    s.handed.map (·.2) ++ s.transfer.mTcpAcceptList.map (s.release p fd).transfer.connOf ++
      s.transfer.backlog.map some = (List.range s.transfer.arrived).map some := by
  have haccepts : s.transfer.mTcpAcceptList.map (s.release p fd).transfer.connOf =
      s.transfer.mTcpAcceptList.map s.transfer.connOf := by
    refine List.map_congr_left fun q hq => ?_
    obtain ⟨fd', hfd'⟩ := h.accepts q hq
    exact (h.release_other hfd (h.accept_ne hhanded hq) hfd').2.2
  rw [haccepts]
  exact h.order

/-- **A socket with a descriptor** is taken out of the map and closed. It has the descriptor of
its entry, and no other entry has the socket, so that the map is left without it. -/
lemma destroyOne_open (h : s.Sound) {p : Ptr} (hp : p ∈ s.transfer.mDestroyList) {fd : ℤ}
    (hfd : s.transfer.mTcpMap[fd]? = some p) : Destroyed [p] s (s.destroyOne p) := by
  obtain ⟨hpos, hown, hopen⟩ := h.entries fd p hfd
  have hopened : ¬s.NoSock p := by
    intro hnone
    have heq := Option.some.inj (hown.symm.trans hnone)
    omega
  -- the socket was handed out, with the connection of its descriptor
  have hhanded : (p, s.transfer.conn fd) ∈ s.handed := by
    obtain ⟨h', hh', rfl⟩ := List.mem_map.mp (h.destroyed p hp)
    rcases h.owned h' hh' with ⟨hnone, -⟩ | ⟨-, hconn⟩
    · exact absurd hnone hopened
    · rw [← h.connOf_eq hfd, hconn]
      exact hh'
  rw [destroyOne_of_mSock hpos hown]
  have hself : (s.release p fd).NoSock p := by
    obtain ⟨u, hu, -⟩ := Option.map_eq_some_iff.mp hown
    exact noSock_release (Option.isSome_of_eq_some hu)
  have hkept : ∀ q, s.NoSock q → (s.release p fd).NoSock q := by
    intro q hq
    by_cases hqp : q = p
    · exact hqp ▸ hself
    · rw [NoSock, sockets_release hqp]
      exact hq
  refine ⟨⟨fun fd' q hq => ?_, fun q hq => ?_, ?_, h.pointers, fun h' hh' => ?_, h.destroyed, ?_,
    fun c hc => ?_⟩, rfl, rfl, hkept, fun q hq => List.mem_singleton.mp hq ▸ hself⟩
  · rw [mTcpMap_release] at hq
    split_ifs at hq with hne
    have hqp : q ≠ p := fun hqp => hne (h.key_unique hfd (hqp ▸ hq))
    obtain ⟨-, hconn, -⟩ := h.release_other hfd hqp hq
    rw [sockets_release hqp, hconn]
    exact h.entries fd' q hq
  · obtain ⟨fd', hfd'⟩ := h.accepts q hq
    exact ⟨fd', (h.release_other hfd (h.accept_ne hhanded hq) hfd').1⟩
  · exact h.order_release hfd hhanded
  · by_cases hqp : h'.1 = p
    · -- its own connection was closed
      refine .inl ⟨hqp ▸ hself, List.mem_append_right _ (List.mem_singleton.mpr ?_)⟩
      rcases h.owned h' hh' with ⟨hnone, -⟩ | ⟨-, hconn⟩
      · exact absurd (hqp ▸ hnone) hopened
      · rw [← hconn, hqp, h.connOf_eq hfd]
    · rcases h.owned h' hh' with ⟨hnone, hclosed⟩ | ⟨⟨fd', hfd'⟩, hconn⟩
      · exact .inl ⟨hkept _ hnone, List.mem_append_left _ hclosed⟩
      · obtain ⟨hin, -, hsame⟩ := h.release_other hfd hqp hfd'
        exact .inr ⟨⟨fd', hin⟩, hsame.trans hconn⟩
  · -- no connection is closed twice: it would be that of another socket
    refine List.Nodup.append h.closed_once (List.nodup_singleton _) fun c hc hc' => ?_
    obtain rfl := List.mem_singleton.mp hc'
    obtain ⟨q, hq, -, hnone⟩ := h.closed_destroyed _ hc
    exact hopened (h.handed_unique hhanded hq ▸ hnone)
  · rcases List.mem_append.mp hc with hold | hnew
    · obtain ⟨q, hq, hmem, hnone⟩ := h.closed_destroyed c hold
      exact ⟨q, hq, hmem, hkept q hnone⟩
    · rw [List.mem_singleton.mp hnew]
      exact ⟨p, hhanded, hp, hself⟩

/-- **One round** of `do_destroy_sockets`. -/
lemma destroyOne (h : s.Sound) {p : Ptr} (hp : p ∈ s.transfer.mDestroyList) :
    Destroyed [p] s (s.destroyOne p) := by
  obtain ⟨h', hh', rfl⟩ := List.mem_map.mp (h.destroyed p hp)
  rcases h.owned h' hh' with ⟨hnone, -⟩ | ⟨⟨fd, hfd⟩, -⟩
  · exact h.destroyOne_closed hnone
  · exact h.destroyOne_open hp hfd

/-- **`do_destroy_sockets`** leaves no destroyed socket a descriptor. -/
lemma doDestroySockets (h : s.Sound) :
    Destroyed s.transfer.mDestroyList s s.doDestroySockets := by
  have hfold : ∀ (ps : List Ptr) (s : Connections), s.Sound →
      (∀ p ∈ ps, p ∈ s.transfer.mDestroyList) →
      Destroyed ps s (ps.foldl Connections.destroyOne s) := by
    intro ps
    induction ps with
    | nil =>
        exact fun s h _ => ⟨h, rfl, rfl, fun _ hp => hp, fun p hp => absurd hp List.not_mem_nil⟩
    | cons p ps ih =>
        intro s h hall
        obtain ⟨hp, hps⟩ := List.forall_mem_cons.mp hall
        have hone := h.destroyOne hp
        have hrest := ih _ hone.sound fun q hq => hone.mDestroyList ▸ hps q hq
        refine ⟨hrest.sound, hrest.handed.trans hone.handed,
          hrest.mDestroyList.trans hone.mDestroyList, fun q hq => hrest.kept q (hone.kept q hq),
          fun q hq => ?_⟩
        rcases List.mem_cons.mp hq with rfl | hmem
        · exact hrest.kept q (hone.gone q List.mem_cons_self)
        · exact hrest.gone q hmem
  exact hfold _ s h fun _ hp => hp

/-- **A call** keeps the books. -/
lemma call (h : s.Sound) {a : ConnAct} (ha : s.Lawful a) : (s.call a).Sound := by
  cases a with
  | arrive => exact h.arrive
  | walkThrough io => exact h.walkThrough ha
  | select polls src => exact h.same (sameBooks_select _ polls src)
  | accept usocket => exact h.accept usocket
  | destroySocket p => exact h.destroySocket ha
  | doDestroySockets => exact h.doDestroySockets.sound

end Sound

/-- The books in every state reached. -/
lemma sound_of_reach {tcpSock : ℕ} {listener : Ptr} {reason : ℤ} {s : Connections}
    (h : (connMachine tcpSock listener reason).Reach Lawful s) : s.Sound := by
  refine h.invariant (sound_init tcpSock listener reason) fun s a s' _ hI hg hstep => ?_
  obtain rfl := Option.some.inj hstep
  exact hI.call hg

/-- **The connections are booked**: the map has open descriptors of its own sockets, each
socket once, and all sockets that wait; `accept` hands out each connection once, in the order
they came; and `do_destroy_sockets` closes the connections of destroyed sockets only, each of
them exactly once. -/
structure Bookkept (s : Connections) : Prop where
  entries : ∀ (fd : ℤ) (p : Ptr), s.transfer.mTcpMap[fd]? = some p →
    (s.transfer.sockets p).map (·.mSock) = some fd ∧ 0 ≤ fd ∧ (s.transfer.conn fd).isSome
  distinct : ∀ (fd fd' : ℤ) (p p' : Ptr), s.transfer.mTcpMap[fd]? = some p →
    s.transfer.mTcpMap[fd']? = some p' → fd ≠ fd' → p ≠ p'
  accepts : ∀ p ∈ s.transfer.mTcpAcceptList, p ∈ s.transfer.tcpSockets
  handed_once : (s.handed.map (·.1)).Nodup
  handed_in_order : s.handed.map (·.2) = (List.range s.handed.length).map some
  closed_destroyed : ∀ c ∈ s.closed, ∃ p, (p, c) ∈ s.handed ∧ p ∈ s.transfer.mDestroyList
  closed_once : ∀ h ∈ s.handed, h.1 ∈ s.transfer.mDestroyList →
    s.doDestroySockets.closed.count h.2 = 1

end Connections

open Connections

/-- **The connections are booked** in every state that is reached by any order of the calls. -/
theorem bookkept_of_reach {tcpSock : ℕ} {listener : Ptr} {reason : ℤ} {s : Connections}
    (h : (connMachine tcpSock listener reason).Reach Lawful s) : s.Bookkept := by
  have hsound := sound_of_reach h
  refine ⟨fun fd p hp => ?_, fun fd fd' p p' hp hp' hne heq => ?_, fun p hp => ?_,
    (List.nodup_append.mp hsound.pointers).1, ?_, fun c hc => ?_, fun h' hh' hmem => ?_⟩
  · obtain ⟨hpos, hsock, hopen⟩ := hsound.entries fd p hp
    exact ⟨hsock, hpos, hopen⟩
  · exact hne (hsound.key_unique hp (heq ▸ hp'))
  · exact mem_tcpSockets.mpr (hsound.accepts p hp)
  · have hfirst : s.handed.map (·.2) <+: (List.range s.transfer.arrived).map some :=
      ⟨_, (List.append_assoc _ _ _).symm.trans hsound.order⟩
    have hlen := hfirst.length_le
    rw [List.length_map, List.length_map, List.length_range] at hlen
    rw [List.prefix_iff_eq_take.mp hfirst, ← List.map_take, List.take_range, List.length_map,
      min_eq_left hlen]
  · obtain ⟨p, hp, hmem, -⟩ := hsound.closed_destroyed c hc
    exact ⟨p, hp, hmem⟩
  · have hdone := hsound.doDestroySockets
    have hgone := hdone.gone h'.1 hmem
    refine List.count_eq_one_of_mem hdone.sound.closed_once ?_
    rcases hdone.sound.owned h' (hdone.handed ▸ hh') with ⟨-, hclosed⟩ | ⟨⟨fd, hfd⟩, -⟩
    · exact hclosed
    · -- a socket of the map has a descriptor
      obtain ⟨hpos, hsock, -⟩ := hdone.sound.entries fd h'.1 hfd
      have heq := Option.some.inj (hsock.symm.trans hgone)
      omega

/-- The kernel offers the connection on the port as the descriptor 5, and the allocator the
address. -/
def offerFive (addr : Ptr) : WalkIo where
  ready := some ⟨fun _ => true, fun _ => false, fun _ => false⟩
  accept := some 5
  addr := addr
  reason := 0

/-- A connection that was accepted, handed out, destroyed and closed. -/
def firstDestroyed : List ConnAct :=
  [.arrive, .walkThrough (offerFive 200), .accept (some 100), .destroySocket 200,
    .doDestroySockets]

/-- A later connection that got the descriptor of the first, and one more walk over the sockets
that were destroyed. -/
def descriptorReused : List ConnAct :=
  firstDestroyed ++
    [.arrive, .walkThrough (offerFive 201), .accept (some 100), .doDestroySockets]

/-- The state after some calls. -/
def afterCalls (calls : List ConnAct) : Connections :=
  calls.foldl (fun s a => s.call a) (connMachine 3 100 0).init

/-- A call after others leads on. -/
lemma reach_afterCalls {calls : List ConnAct} {a : ConnAct}
    (h : (connMachine 3 100 0).Reach Lawful (afterCalls calls))
    (hlawful : (afterCalls calls).Lawful a) :
    (connMachine 3 100 0).Reach Lawful (afterCalls (calls ++ [a])) := by
  refine h.step hlawful ?_
  rw [afterCalls, afterCalls, List.foldl_append]
  rfl

lemma reach_firstDestroyed : (connMachine 3 100 0).Reach Lawful (afterCalls firstDestroyed) := by
  have hinit : (connMachine 3 100 0).Reach Lawful (afterCalls []) := .init
  have hfresh : (afterCalls [.arrive]).Lawful (.walkThrough (offerFive 200)) :=
    ⟨fun _ _ => rfl, by decide⟩
  have hwalk := reach_afterCalls (reach_afterCalls hinit (a := .arrive) trivial) hfresh
  have haccept := reach_afterCalls hwalk (a := .accept (some 100)) trivial
  have hdestroy := reach_afterCalls haccept (a := .destroySocket 200)
    (show 200 ∈ _ by decide +kernel)
  exact reach_afterCalls hdestroy (a := .doDestroySockets) trivial

lemma reach_descriptorReused :
    (connMachine 3 100 0).Reach Lawful (afterCalls descriptorReused) := by
  have harrive := reach_afterCalls reach_firstDestroyed (a := .arrive) trivial
  -- the first connection was closed, so the kernel may give its descriptor again
  have hfresh : (afterCalls (firstDestroyed ++ [.arrive])).Lawful
      (.walkThrough (offerFive 201)) := by
    refine ⟨fun newSock hsock => ?_, by decide +kernel⟩
    obtain rfl : 5 = newSock := Option.some.inj hsock
    decide +kernel
  have hwalk := reach_afterCalls harrive hfresh
  have haccept := reach_afterCalls hwalk (a := .accept (some 100)) trivial
  have hcalls : descriptorReused = firstDestroyed ++ [.arrive] ++ [.walkThrough (offerFive 201)] ++
      [.accept (some 100)] ++ [.doDestroySockets] := rfl
  rw [hcalls]
  exact reach_afterCalls haccept trivial

/-- The first connection is closed once, and the second one keeps the descriptor. -/
theorem bookkept_of_reach_reused :
    (afterCalls descriptorReused).closed = [some 0] ∧
      (afterCalls descriptorReused).transfer.conn 5 = some 1 ∧
      (afterCalls descriptorReused).Bookkept :=
  ⟨by decide +kernel, by decide +kernel, bookkept_of_reach reach_descriptorReused⟩

end Epbs
