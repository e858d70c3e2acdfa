/-
How the service loops take in connections.

* `Attended`: what holds between two iterations of a loop;
* `iterate_spec`: an iteration serves registered connections that are ready, and then
  registers the first socket of the accept list;
* `Service`, `loopMachine`: the four loops as machines, with the clients and the other
  threads around them;
* `takes_in_iff`: an iteration takes in the connection that the kernel offers in each
  loop but `job_monitor_etransfer`;
* `jobMonitor_leaves_waiting`: there it stays where it is.
-/
import Mathlib.Tactic
import Epbs.Machine.Guarded
import Epbs.Transfer.ServiceLoop

namespace Epbs

namespace ServiceLoop

variable {σ : Type*}

/-! ### One iteration -/

/-- The listener works, and what is registered are sockets of connections, each under
its own address. -/
structure Sound (s : ServiceLoop σ) : Prop where
  listening : s.transfer.Listening
  registered : ∀ p up, s.mTcpMap[p]? = some up →
    up.usock = p ∧ p ≠ s.transfer.mTcpListener ∧ (s.transfer.sockets p).isSome

/-- Between two iterations every accepted socket was handed out: no connection is left in the accept
list of the transfer. -/
structure Attended (s : ServiceLoop σ) : Prop extends Sound s where
  accepts : s.transfer.mTcpAcceptList = []

/-- The transfer after the `walk_through` of a loop that calls it. -/
def walked (walks : Bool) (io : Io) (s : ServiceLoop σ) : ETransfer :=
  if walks then s.transfer.walkThrough io.toWalkIo else s.transfer

/-- The registered connections for which one of the polls finds an event. -/
def readySockets (walks : Bool) (io : Io) (s : ServiceLoop σ) : Set Ptr :=
  {p | ∃ up, s.mTcpMap[p]? = some up ∧ ∃ k, (s.walked walks io).available (io.polls k) up ≠ []}

lemma usock_of_mem_available {t : ETransfer} {poll : Poll} {it up : Upoll}
    (h : up ∈ t.available poll it) : up.usock = it.usock := by
  rw [ETransfer.available] at h
  grind

/-- Events of connections in `S`, none of them the listener. -/
lemma served_foldl {onSocket : Io → Upoll → ServiceLoop σ → ServiceLoop σ}
    (hon : Serves onSocket) (io : Io) {S : Set Ptr} {dst : List Upoll} {s : ServiceLoop σ}
    (hdst : ∀ up ∈ dst, up.usock ∈ S ∧ up.usock ≠ s.transfer.mTcpListener) :
    Served S s (dst.foldl (onEvent onSocket io) s) := by
  induction dst generalizing s with
  | nil => exact .refl S s
  | cons up dst ih =>
      obtain ⟨hmem, hne⟩ := hdst up List.mem_cons_self
      have hhead : Served S s (onEvent onSocket io s up) := by
        rw [onEvent, if_neg hne]
        exact (hon io up s).mono (Set.singleton_subset_iff.mpr hmem)
      refine hhead.trans (ih fun up' hup' => ?_)
      rw [hhead.touches.mTcpListener]
      exact hdst up' (List.mem_cons_of_mem up hup')

/-- The walk keeps the loop sound. -/
lemma Sound.walk {s : ServiceLoop σ} (hs : s.Sound) (walks : Bool) {io : Io}
    (hfresh : s.transfer.Fresh io.toWalkIo) :
    Sound { s with transfer := s.walked walks io } ∧
      (s.walked walks io).mTcpListener = s.transfer.mTcpListener := by
  cases walks with
  | false => exact ⟨hs, rfl⟩
  | true =>
      obtain ⟨hlist, heq⟩ := hs.listening.walkThrough hfresh
      refine ⟨⟨hlist, fun p up hup => ?_⟩, heq⟩
      obtain ⟨husock, hne, hsome⟩ := hs.registered p up hup
      exact ⟨husock, fun hc => hne (hc.trans heq), (ETransfer.sock_walkThrough hfresh hsome).2⟩

/-- Serving registered connections keeps the loop sound. -/
lemma Sound.served {S : Set Ptr} {s s' : ServiceLoop σ} (hs : s.Sound) (h : Served S s s')
    (hS : ∀ p ∈ S, ∃ up, s.mTcpMap[p]? = some up) : s'.Sound := by
  have hlistener : s.transfer.mTcpListener ∉ S := by
    intro hc
    obtain ⟨up, hup⟩ := hS _ hc
    exact (hs.registered _ up hup).2.1 rfl
  refine ⟨hs.listening.touches h.touches hlistener, fun p up hup => ?_⟩
  rw [h.touches.mTcpListener, h.touches.isSome]
  rcases h.own p up hup with hold | ⟨hmem, husock⟩
  · exact hs.registered p up hold
  · obtain ⟨up', hup'⟩ := hS p hmem
    exact ⟨husock, (hs.registered p up' hup').2⟩

/-- With nothing on the accept list nothing is accepted. -/
lemma acceptConnection_of_nil {s : ServiceLoop σ} (h : s.transfer.mTcpAcceptList = []) :
    s.acceptConnection = s := by
  rw [acceptConnection, ETransfer.accept_of_nil h]

/-- The first socket on the accept list is registered for reading. -/
lemma acceptConnection_of_cons {s : ServiceLoop σ} {p : Ptr} {rest : List Ptr}
    (h : s.transfer.mTcpAcceptList = p :: rest) :
    ∃ t, ETransfer.Touches {p} { s.transfer with mTcpAcceptList := rest } t ∧
      ((s.transfer.sockets p).isSome → (t.sock p).isError = false) ∧
      s.acceptConnection =
        { s with
          transfer := t
          mTcpMap := s.mTcpMap.insert p
            { usock := p, events := upollReadT, pointer := none } } := by
  refine ⟨_, ?_, fun hp => ?_, by rw [acceptConnection, ETransfer.accept_of_cons h]⟩
  · exact .setSock { s.transfer with mTcpAcceptList := rest } (fun _ => rfl)
      fun hc => absurd rfl hc
  · obtain ⟨u, hu⟩ := Option.isSome_iff_exists.mp hp
    simp [ETransfer.sock, ETransfer.setSock, hu, UTcpSocket.isError]

/-- The loop after the walk and `select`, which changes flags. -/
def selected (walks : Bool) (io : Io) (s : ServiceLoop σ) : ServiceLoop σ :=
  { s with transfer := ((s.walked walks io).select io.polls s.src).1 }

/-- The events of registered connections that the `k`-th poll finds. -/
def connEvents (walks : Bool) (io : Io) (s : ServiceLoop σ) (k : ℕ) : List Upoll :=
  (s.mTcpMap.toList.map (·.2)).flatMap ((s.walked walks io).available (io.polls k))

/-- The events are of registered connections. -/
lemma mem_connEvents {s : ServiceLoop σ} (hs : s.Sound) {walks : Bool} {io : Io} {k : ℕ}
    {up : Upoll} (h : up ∈ s.connEvents walks io k) :
    ∃ it, s.mTcpMap[up.usock]? = some it ∧ it.usock = up.usock ∧
      up.usock ≠ s.transfer.mTcpListener ∧
      up ∈ (s.walked walks io).available (io.polls k) it := by
  obtain ⟨it, hit, hup⟩ := List.mem_flatMap.mp h
  obtain ⟨⟨p, it'⟩, hp, rfl⟩ := List.mem_map.mp hit
  have hp := Std.TreeMap.mem_toList_iff_getElem?_eq_some.mp hp
  obtain ⟨husock, hne, -⟩ := hs.registered p it' hp
  have heq := usock_of_mem_available hup
  rw [heq, husock]
  exact ⟨it', hp, husock, hne, hup⟩

/-- Events of connections are handled one after the other. -/
lemma foldl_onEvent {onSocket : Io → Upoll → ServiceLoop σ → ServiceLoop σ}
    (hon : Serves onSocket) (io : Io) {dst : List Upoll} {s : ServiceLoop σ}
    (hdst : ∀ up ∈ dst, up.usock ≠ s.transfer.mTcpListener) :
    dst.foldl (onEvent onSocket io) s = dst.foldl (fun s up => onSocket io up s) s := by
  induction dst generalizing s with
  | nil => rfl
  | cons up dst ih =>
      rw [List.foldl_cons, List.foldl_cons, onEvent, if_neg (hdst up List.mem_cons_self)]
      refine ih fun up' hup' => ?_
      rw [(hon io up s).touches.mTcpListener]
      exact hdst up' (List.mem_cons_of_mem up hup')

/-- After the walk and `select` the listener is the same. -/
lemma Sound.selected {s : ServiceLoop σ} (hs : s.Sound) (walks : Bool) {io : Io}
    (hfresh : s.transfer.Fresh io.toWalkIo) :
    Served ∅ { s with transfer := s.walked walks io } (s.selected walks io) ∧
      (s.selected walks io).transfer.mTcpListener = s.transfer.mTcpListener := by
  have htouch := (ETransfer.select_spec (s.walked walks io) io.polls s.src).1
  exact ⟨.of_touches htouch rfl, htouch.mTcpListener.trans (hs.walk walks hfresh).2⟩

/-- **An iteration** handles the events of the registered connections that one of the
polls finds, in the order of `m_tcp_map`, and then takes the first socket off the accept
list. -/
lemma iterate_eq {onSocket : Io → Upoll → ServiceLoop σ → ServiceLoop σ}
    (hon : Serves onSocket) {s : ServiceLoop σ} (hs : s.Sound) (walks : Bool) {io : Io}
    (hfresh : s.transfer.Fresh io.toWalkIo) :
    ∃ k, iterate walks onSocket io s =
      ((s.connEvents walks io k).foldl (fun s up => onSocket io up s)
        (s.selected walks io)).acceptConnection := by
  obtain ⟨⟨hlist, -⟩, hlistener⟩ := hs.walk walks hfresh
  obtain ⟨-, hselect⟩ := hs.selected walks hfresh
  set t := s.walked walks io with ht
  obtain ⟨-, ⟨k, hdst⟩, hres⟩ := ETransfer.select_spec t io.polls s.src
  -- a result of 0 comes with an empty `dst`
  have hiter : iterate walks onSocket io s =
      ((t.select io.polls s.src).2.1).foldl (onEvent onSocket io) (s.selected walks io) := by
    simp only [iterate]
    rw [show (if walks then s.transfer.walkThrough io.toWalkIo else s.transfer) = t from rfl]
    split_ifs with hpos
    · rfl
    · rw [not_not.mp (mt hres.mpr hpos), List.foldl_nil]
      rfl
  have hconns : ∀ up ∈ s.connEvents walks io k,
      up.usock ≠ (s.selected walks io).transfer.mTcpListener := by
    intro up hup
    obtain ⟨it, -, -, hne, -⟩ := mem_connEvents hs hup
    rw [hselect]
    exact hne
  refine ⟨k, ?_⟩
  have hls : s.lsPoll.usock = t.mTcpListener := hlistener.symm
  rw [hiter, hdst, src, List.flatMap_append, List.foldl_append, List.flatMap_singleton,
    hlist.available (io.polls k) hls rfl, ← foldl_onEvent hon io hconns, connEvents]
  have hserve := served_foldl (S := {p | p ≠ (s.selected walks io).transfer.mTcpListener}) hon io
    fun up hup => ⟨hconns up hup, hconns up hup⟩
  rw [connEvents] at hserve
  set s₂ := ((s.mTcpMap.toList.map (·.2)).flatMap (t.available (io.polls k))).foldl
    (onEvent onSocket io) (s.selected walks io)
  have haccepts : s₂.transfer.mTcpAcceptList = t.mTcpAcceptList :=
    hserve.touches.mTcpAcceptList.trans
      (ETransfer.select_spec t io.polls s.src).1.mTcpAcceptList
  split_ifs with hnil
  · rw [List.foldl_nil, acceptConnection, ETransfer.accept_of_nil (haccepts.trans hnil)]
  · have hread := (Upoll.has_of_read (rfl : s.lsPoll.events = upollReadT)).1
    have hlistener₂ : s₂.transfer.mTcpListener = s.lsPoll.usock :=
      hserve.touches.mTcpListener.trans hselect
    rw [List.foldl_cons, List.foldl_nil, onEvent, if_pos hlistener₂.symm, if_pos hread]

/-- **An iteration** serves registered connections that are ready, and then takes the
first socket off the accept list. -/
lemma iterate_spec {onSocket : Io → Upoll → ServiceLoop σ → ServiceLoop σ}
    (hon : Serves onSocket) {s : ServiceLoop σ} (hs : s.Sound) (walks : Bool) {io : Io}
    (hfresh : s.transfer.Fresh io.toWalkIo) :
    ∃ s', Served (s.readySockets walks io) { s with transfer := s.walked walks io } s' ∧
      iterate walks onSocket io s = s'.acceptConnection := by
  obtain ⟨k, heq⟩ := iterate_eq hon hs walks hfresh
  obtain ⟨hselect, hlistener⟩ := hs.selected walks hfresh
  refine ⟨_, (hselect.mono (Set.empty_subset _)).trans ?_, heq⟩
  have hdst : ∀ up ∈ s.connEvents walks io k, up.usock ∈ s.readySockets walks io ∧
      up.usock ≠ (s.selected walks io).transfer.mTcpListener := by
    intro up hup
    obtain ⟨it, hit, -, hne, hmem⟩ := mem_connEvents hs hup
    rw [hlistener]
    exact ⟨⟨it, hit, k, List.ne_nil_of_mem hmem⟩, hne⟩
  rw [← foldl_onEvent hon io fun up hup => (hdst up hup).2]
  exact served_foldl hon io hdst

/-- The walk leaves the accept list empty, or puts one socket on it. -/
lemma Attended.accepts_walked {s : ServiceLoop σ} (hs : s.Attended) (walks : Bool) (io : Io) :
    (s.walked walks io).mTcpAcceptList = [] ∨
      (s.walked walks io).mTcpAcceptList = [io.addr] ∧
        ((s.walked walks io).sockets io.addr).isSome := by
  cases walks with
  | false => exact .inl hs.accepts
  | true =>
      have htouch := ETransfer.touches_walkThrough s.transfer io.toWalkIo
      have hwalked : s.walked true io = s.transfer.walkThrough io.toWalkIo := rfl
      rw [hwalked, htouch.mTcpAcceptList, htouch.isSome]
      exact ETransfer.accepts_listened hs.accepts

/-- **An iteration** hands out every accepted socket. -/
lemma Attended.iterate {onSocket : Io → Upoll → ServiceLoop σ → ServiceLoop σ}
    (hon : Serves onSocket) {s : ServiceLoop σ} (hs : s.Attended) (walks : Bool) {io : Io}
    (hfresh : s.transfer.Fresh io.toWalkIo) : (iterate walks onSocket io s).Attended := by
  obtain ⟨hwalk, hlistener⟩ := hs.toSound.walk walks hfresh
  obtain ⟨s', hserved, heq⟩ := iterate_spec hon hs.toSound walks hfresh
  have hsound : s'.Sound := hwalk.served hserved fun p ⟨up, hup, _⟩ => ⟨up, hup⟩
  have haccepts : s'.transfer.mTcpAcceptList = (s.walked walks io).mTcpAcceptList :=
    hserved.touches.mTcpAcceptList
  rw [heq]
  rcases hs.accepts_walked walks io with hnil | ⟨hone, hsome⟩
  · rw [acceptConnection_of_nil (haccepts.trans hnil)]
    exact ⟨hsound, haccepts.trans hnil⟩
  · obtain ⟨t, htouch, -, heq⟩ := acceptConnection_of_cons (haccepts.trans hone)
    rw [heq]
    have hne : s'.transfer.mTcpListener ≠ io.addr := by
      rw [hserved.touches.mTcpListener]
      exact fun hc => hs.listening.ne_addr hfresh (hlistener.symm.trans hc)
    have hlist : ETransfer.Listening { s'.transfer with mTcpAcceptList := [] } :=
      { hsound.listening with }
    refine ⟨⟨hlist.touches htouch hne, fun p up hup => ?_⟩, htouch.mTcpAcceptList⟩
    rw [htouch.mTcpListener, htouch.isSome]
    rw [Std.TreeMap.getElem?_insert] at hup
    split_ifs at hup with hp
    · obtain rfl := Std.LawfulEqCmp.compare_eq_iff_eq.mp hp
      obtain rfl := Option.some.inj hup
      refine ⟨rfl, hne.symm, ?_⟩
      exact (hserved.touches.isSome _).trans hsome
    · exact hsound.registered p up hup

/-! ### A connection that is registered -/

/-- The connection is registered in the loop's `m_tcp_map` for reading. -/
def Registered (s : ServiceLoop σ) (c : ℕ) : Prop :=
  ∃ p up, s.mTcpMap[p]? = some up ∧ up.events = upollReadT ∧ s.transfer.connOf p = some c

/-- The connection is in the eTransfer's `m_tcp_accept_list`. -/
def OnAcceptList (s : ServiceLoop σ) (c : ℕ) : Prop :=
  ∃ p ∈ s.transfer.mTcpAcceptList, s.transfer.connOf p = some c

/-- The connection waits first on the port, the kernel reports the port readable, and
`::accept` succeeds. -/
structure Offered (s : ServiceLoop σ) (io : Io) (c : ℕ) : Prop where
  backlog : ∃ rest, s.transfer.backlog = c :: rest
  readable : ∃ r, io.ready = some r ∧ r.rset s.transfer.mTcpSock = true
  accepted : ∃ newSock, io.accept = some newSock

/-- The kernel reports nothing for the connection. -/
def Quiet (s : ServiceLoop σ) (io : Io) (c : ℕ) : Prop :=
  ∀ fd, s.transfer.conn fd = some c →
    (∀ r, io.ready = some r → r.eset fd = false) ∧
      ∀ k, (io.polls k).canRead fd = false ∧ (io.polls k).canWrite fd = false

/-- The connection is registered, and its socket is not in error. -/
def Awaited (s : ServiceLoop σ) (c : ℕ) : Prop :=
  ∃ p up, s.mTcpMap[p]? = some up ∧ up.events = upollReadT ∧
    s.transfer.connOf p = some c ∧ (s.transfer.sock p).isError = false

lemma Awaited.registered {s : ServiceLoop σ} {c : ℕ} (h : s.Awaited c) : s.Registered c := by
  obtain ⟨p, up, hup, hevents, hconn, -⟩ := h
  exact ⟨p, up, hup, hevents, hconn⟩

/-- **A loop that walks** registers the connection that the kernel offers. -/
lemma awaited_of_offered {onSocket : Io → Upoll → ServiceLoop σ → ServiceLoop σ}
    (hon : Serves onSocket) {s : ServiceLoop σ} (hs : s.Attended) {io : Io}
    (hfresh : s.transfer.Fresh io.toWalkIo) {c : ℕ} (hoff : s.Offered io c) :
    (iterate true onSocket io s).Awaited c := by
  obtain ⟨⟨rest, hlog⟩, ⟨r, hr, hready⟩, newSock, hacc⟩ := hoff
  have hnew := ETransfer.listened_of_ready hs.listening.port hr hready hlog hacc
  have hwalk := ETransfer.touches_walkThrough s.transfer io.toWalkIo
  rw [hnew] at hwalk
  obtain ⟨s', hserved, heq⟩ := iterate_spec hon hs.toSound true hfresh
  have haccepts : s'.transfer.mTcpAcceptList = [io.addr] := by
    calc s'.transfer.mTcpAcceptList
        = (s.transfer.walkThrough io.toWalkIo).mTcpAcceptList := hserved.touches.mTcpAcceptList
      _ = s.transfer.mTcpAcceptList ++ [io.addr] := hwalk.mTcpAcceptList
      _ = [io.addr] := by rw [hs.accepts, List.nil_append]
  have hconn : s'.transfer.connOf io.addr = some c := by
    calc s'.transfer.connOf io.addr
        = (s.transfer.walkThrough io.toWalkIo).connOf io.addr := hserved.touches.connOf io.addr
      _ = (s.transfer.newSocket io.toWalkIo newSock c rest).connOf io.addr :=
          hwalk.connOf io.addr
      _ = some c := ETransfer.connOf_newSocket
  obtain ⟨t, htouch, hsound, heq'⟩ := acceptConnection_of_cons haccepts
  have hsome : (s'.transfer.sockets io.addr).isSome := by
    rw [ETransfer.connOf, Option.bind_eq_some_iff] at hconn
    exact Option.isSome_iff_exists.mpr (hconn.imp fun _ hu => hu.1)
  rw [heq, heq']
  refine ⟨io.addr, _, Std.TreeMap.getElem?_insert_self, rfl, ?_, hsound hsome⟩
  exact (htouch.connOf io.addr).trans hconn

/-- No poll finds an event of a connection for which the kernel reports nothing. -/
lemma available_of_quiet {s : ServiceLoop σ} (hs : s.Sound) (walks : Bool) {io : Io}
    (hfresh : s.transfer.Fresh io.toWalkIo) {c : ℕ} (hquiet : s.Quiet io c) {p : Ptr} {up : Upoll}
    (hup : s.mTcpMap[p]? = some up) (hconn : s.transfer.connOf p = some c)
    (hsound : (s.transfer.sock p).isError = false) (k : ℕ) :
    (s.walked walks io).available (io.polls k) up = [] := by
  obtain ⟨rfl, hne, hsome⟩ := hs.registered p up hup
  have hfd : s.transfer.conn (s.transfer.sock up.usock).mSock = some c := by
    obtain ⟨u, hu, hc⟩ := Option.bind_eq_some_iff.mp hconn
    rw [ETransfer.sock, hu]
    exact hc
  obtain ⟨herr, hpoll⟩ := hquiet _ hfd
  obtain ⟨hread, hwrite⟩ := hpoll k
  have hwalked : ((s.walked walks io).sock up.usock).isError = false ∧
      ((s.walked walks io).sock up.usock).mSock = (s.transfer.sock up.usock).mSock := by
    cases walks with
    | false => exact ⟨hsound, rfl⟩
    | true =>
        exact ⟨ETransfer.not_isError_walkThrough hfresh hsome hsound herr,
          (ETransfer.sock_walkThrough hfresh hsome).1⟩
  rw [ETransfer.available, if_neg (by rw [hwalked.1]; exact Bool.false_ne_true)]
  simp [ETransfer.canRead, ETransfer.canWrite, hwalked.2, hread, hwrite, (hs.walk walks hfresh).2,
    hne]

/-- A registered connection for which the kernel reports nothing stays registered,
whatever the iteration does for other connections. -/
lemma Awaited.iterate {onSocket : Io → Upoll → ServiceLoop σ → ServiceLoop σ}
    (hon : Serves onSocket) {s : ServiceLoop σ} (hs : s.Attended) (walks : Bool) {io : Io}
    (hfresh : s.transfer.Fresh io.toWalkIo) {c : ℕ} (h : s.Awaited c) (hquiet : s.Quiet io c) :
    (ServiceLoop.iterate walks onSocket io s).Registered c := by
  obtain ⟨p, up, hup, hevents, hconn, hsound⟩ := h
  obtain ⟨s', hserved, heq⟩ := iterate_spec hon hs.toSound walks hfresh
  have hidle : p ∉ s.readySockets walks io := by
    rintro ⟨up', hup', k, hk⟩
    exact hk (available_of_quiet hs.toSound walks hfresh hquiet hup' hconn hsound k)
  have hup' : s'.mTcpMap[p]? = some up := (hserved.others p hidle).trans hup
  have hconn' : s'.transfer.connOf p = some c := by
    rw [hserved.touches.connOf]
    cases walks with
    | false => exact hconn
    | true => exact ETransfer.connOf_walkThrough hfresh hconn
  have haccepts : s'.transfer.mTcpAcceptList = (s.walked walks io).mTcpAcceptList :=
    hserved.touches.mTcpAcceptList
  rw [heq]
  rcases hs.accepts_walked walks io with hnil | ⟨hone, -⟩
  · rw [acceptConnection_of_nil (haccepts.trans hnil)]
    exact ⟨p, up, hup', hevents, hconn'⟩
  · obtain ⟨t, htouch, -, heq'⟩ := acceptConnection_of_cons (haccepts.trans hone)
    rw [heq']
    refine ⟨p, up, ?_, hevents, (htouch.connOf p).trans hconn'⟩
    -- the new socket is another object
    have hne : io.addr ≠ p := by
      rintro rfl
      have hsome := (hs.registered _ up hup).2.2
      rw [hfresh.addr] at hsome
      cases hsome
    rw [Std.TreeMap.getElem?_insert, if_neg (mt Std.LawfulEqCmp.compare_eq_iff_eq.mp hne)]
    exact hup'

/-- A loop that does not walk registers nothing when nothing is registered. -/
lemma iterate_registers_nothing {onSocket : Io → Upoll → ServiceLoop σ → ServiceLoop σ}
    (hon : Serves onSocket) {s : ServiceLoop σ} (hs : s.Attended) {io : Io}
    (hfresh : s.transfer.Fresh io.toWalkIo) (hnone : ∀ p : Ptr, s.mTcpMap[p]? = none) (p : Ptr) :
    (iterate false onSocket io s).mTcpMap[p]? = none := by
  obtain ⟨s', hserved, heq⟩ := iterate_spec hon hs.toSound false hfresh
  have haccepts : s'.transfer.mTcpAcceptList = [] :=
    hserved.touches.mTcpAcceptList.trans hs.accepts
  have hidle : p ∉ s.readySockets false io := by
    rintro ⟨up, hup, -⟩
    rw [hnone p] at hup
    cases hup
  rw [heq, acceptConnection_of_nil haccepts]
  exact (hserved.others p hidle).trans (hnone p)

/-- Another thread changes the tables. -/
def setTables (s : ServiceLoop σ) (tables : σ) : ServiceLoop σ := { s with tables := tables }

lemma Attended.setTables {s : ServiceLoop σ} (hs : s.Attended) (tables : σ) :
    (s.setTables tables).Attended :=
  ⟨⟨hs.listening, hs.registered⟩, hs.accepts⟩

lemma Awaited.setTables {s : ServiceLoop σ} {c : ℕ} (h : s.Awaited c) (tables : σ) :
    (s.setTables tables).Awaited c := h

lemma Registered.setTables {s : ServiceLoop σ} {c : ℕ} (h : s.Registered c) (tables : σ) :
    (s.setTables tables).Registered c := h

lemma setTables_mTcpMap (s : ServiceLoop σ) (tables : σ) :
    (s.setTables tables).mTcpMap = s.mTcpMap := rfl

/-- A loop after `init_tcp`: the port is open, and there is no connection. -/
def start (tcpSock : ℕ) (listener : Ptr) (reason : ℤ) (recvBuffer : Bytes) (tables : σ) :
    ServiceLoop σ where
  transfer := .opened tcpSock listener reason
  mTcpMap := ∅
  recvSize := 0
  recvBuffer := recvBuffer
  buffers := fun _ => none
  tables := tables

lemma attended_start (tcpSock : ℕ) (listener : Ptr) (reason : ℤ) (recvBuffer : Bytes)
    (tables : σ) : (start tcpSock listener reason recvBuffer tables).Attended := by
  refine ⟨⟨⟨Int.natCast_nonneg tcpSock, ?_, ?_, ?_⟩, fun p up hup => ?_⟩, rfl⟩
  · simp [start, ETransfer.opened]
  · simp [start, ETransfer.opened, ETransfer.sock, UTcpSocket.isError, UTcpSocket.new]
  · simp [start, ETransfer.opened, ETransfer.mem_tcpSockets]
  · simp [start] at hup

end ServiceLoop

/-! ### The four loops -/

/-- The four service loops. -/
inductive Service where
  | jobMonitorEtransfer | jobQueueResult1 | hostMonitorTransfer2 | epbsHostStatus
  deriving DecidableEq, Repr

namespace Service

variable {σ : Type*}

/-- One iteration of the loop. -/
def iteration (k : Service) (h : Handlers σ) : Io → ServiceLoop σ → ServiceLoop σ :=
  match k with
  | jobMonitorEtransfer => ServiceLoop.jobMonitorEtransfer h
  | jobQueueResult1 => ServiceLoop.jobQueueResult1 h
  | hostMonitorTransfer2 => ServiceLoop.hostMonitorTransfer2 h
  | epbsHostStatus => ServiceLoop.epbsHostStatus h

/-- Whether the loop calls `walk_through`. -/
def walks : Service → Bool
  | jobMonitorEtransfer => false
  | _ => true

lemma walks_of_ne {k : Service} (hk : k ≠ jobMonitorEtransfer) : k.walks = true := by
  cases k with
  | jobMonitorEtransfer => exact absurd rfl hk
  | _ => rfl

/-- What the loop does for an event of a connection. -/
def onSocket (k : Service) (h : Handlers σ) : Io → Upoll → ServiceLoop σ → ServiceLoop σ :=
  match k with
  | jobMonitorEtransfer => ServiceLoop.jobMonitorSocket h
  | jobQueueResult1 => ServiceLoop.jobQueueResultSocket h
  | hostMonitorTransfer2 => ServiceLoop.hostMonitorSocket h
  | epbsHostStatus => ServiceLoop.epbsHostStatusSocket

lemma serves_onSocket (k : Service) (h : Handlers σ) : ServiceLoop.Serves (k.onSocket h) := by
  cases k with
  | jobMonitorEtransfer => exact ServiceLoop.serves_jobMonitorSocket h
  | jobQueueResult1 => exact ServiceLoop.serves_jobQueueResultSocket h
  | hostMonitorTransfer2 => exact ServiceLoop.serves_hostMonitorSocket h
  | epbsHostStatus => exact ServiceLoop.serves_epbsHostStatusSocket

/-- The loops are instances of one, up to the tables. -/
lemma iteration_eq (k : Service) (h : Handlers σ) (io : Io) (s : ServiceLoop σ) :
    ∃ tables, k.iteration h io s =
      (ServiceLoop.iterate k.walks (k.onSocket h) io s).setTables tables := by
  have hself : ∀ s' : ServiceLoop σ, s' = s'.setTables s'.tables := fun _ => rfl
  cases k with
  | epbsHostStatus =>
      simp only [iteration, ServiceLoop.epbsHostStatus]
      split_ifs
      · exact ⟨_, rfl⟩
      · exact ⟨_, hself _⟩
  | _ => exact ⟨_, hself _⟩

end Service

/-- What happens around a loop: a client connects to its port, the loop makes an
iteration, another thread changes the tables. -/
inductive LoopAct (σ : Type*) where
  | connect
  | iteration (io : Io)
  | others (tables : σ)

/-- Anything but an iteration. -/
def LoopAct.Outside {σ : Type*} : LoopAct σ → Prop
  | .iteration _ => False
  | _ => True

/-- A service loop with what happens around it. -/
def loopMachine {σ : Type*} (k : Service) (h : Handlers σ) (start : ServiceLoop σ) :
    Machine (ServiceLoop σ) (LoopAct σ) where
  init := start
  step
    | .connect, s => some { s with transfer := s.transfer.arrive }
    | .iteration io, s => some (k.iteration h io s)
    | .others tables, s => some (s.setTables tables)

/-- The kernel gives unused descriptors, and the allocator unused memory. -/
def FreshIo {σ : Type*} (s : ServiceLoop σ) : LoopAct σ → Prop
  | .iteration io => s.transfer.Fresh io.toWalkIo
  | _ => True

section Loops

variable {σ : Type*} {k : Service} {h : Handlers σ} {tcpSock : ℕ} {listener : Ptr} {reason : ℤ}
  {recvBuffer : Bytes} {tables : σ} {s s' : ServiceLoop σ}

/-- Between two iterations of the loop: the accepted sockets were handed out, and if the
loop does not walk it has registered none. -/
def Service.Idle (k : Service) (s : ServiceLoop σ) : Prop :=
  s.Attended ∧ (k = .jobMonitorEtransfer → ∀ p : Ptr, s.mTcpMap[p]? = none)

/-- **One iteration** of any of the loops. -/
lemma Service.Idle.iteration (hs : k.Idle s) {io : Io} (hfresh : s.transfer.Fresh io.toWalkIo) :
    k.Idle (k.iteration h io s) := by
  obtain ⟨hatt, hnone⟩ := hs
  obtain ⟨tables, heq⟩ := k.iteration_eq h io s
  rw [heq]
  refine ⟨(hatt.iterate (k.serves_onSocket h) k.walks hfresh).setTables tables, fun hk => ?_⟩
  subst hk
  rw [ServiceLoop.setTables_mTcpMap]
  exact ServiceLoop.iterate_registers_nothing (Service.serves_onSocket _ h) hatt hfresh
    (hnone rfl)

lemma idle_of_reach
    (hs : (loopMachine k h (.start tcpSock listener reason recvBuffer tables)).Reach FreshIo s) :
    k.Idle s := by
  refine hs.invariant (I := k.Idle) ?_ ?_
  · refine ⟨ServiceLoop.attended_start _ _ _ _ _, fun _ p => ?_⟩
    simp [loopMachine, ServiceLoop.start]
  · intro s l s' _ hidle hg hstep
    cases l with
    | connect =>
        obtain rfl := Option.some.inj hstep
        obtain ⟨hatt, hnone⟩ := hidle
        exact ⟨⟨⟨{ hatt.listening with }, hatt.registered⟩, hatt.accepts⟩, hnone⟩
    | others tables =>
        obtain rfl := Option.some.inj hstep
        obtain ⟨hatt, hnone⟩ := hidle
        exact ⟨hatt.setTables tables, hnone⟩
    | iteration io =>
        obtain rfl := Option.some.inj hstep
        exact hidle.iteration hg

/-- Runs without iterations are guarded. -/
lemma guardedRun_of_outside {between : List (LoopAct σ)} (start : ServiceLoop σ)
    (hb : ∀ a ∈ between, a.Outside) (s : ServiceLoop σ) :
    (loopMachine k h start).GuardedRun FreshIo between s := by
  induction between generalizing s with
  | nil => trivial
  | cons a between ih =>
      refine fun s' _ => ⟨?_, ih (fun b hb' => hb b (List.mem_cons_of_mem a hb')) s'⟩
      have ha := hb a List.mem_cons_self
      cases a with
      | iteration io => exact ha.elim
      | connect => trivial
      | others tables => trivial

/-- What happens outside the iterations leaves a registered connection alone. -/
lemma awaited_of_outside {between : List (LoopAct σ)} {start : ServiceLoop σ} {c : ℕ}
    (hs : s.Awaited c) (hb : ∀ a ∈ between, a.Outside)
    (hrun : (loopMachine k h start).run between s = some s') : s'.Awaited c := by
  induction between generalizing s with
  | nil =>
      cases hrun
      exact hs
  | cons a between ih =>
      obtain ⟨t, ht, hrest⟩ := Option.bind_eq_some_iff.mp hrun
      refine ih ?_ (fun b hb' => hb b (List.mem_cons_of_mem a hb')) hrest
      cases a with
      | iteration io => exact (hb _ List.mem_cons_self).elim
      | connect =>
          obtain rfl := Option.some.inj ht
          exact hs
      | others tables =>
          obtain rfl := Option.some.inj ht
          exact hs

/-- **Every service loop takes in connections**, except `job_monitor_etransfer`: the
connection that the kernel offers to an iteration is on the accept list or registered
when the iteration ends, and registered after a further iteration in which the kernel
reports nothing for it. -/
theorem takes_in_iff
    (hs : (loopMachine k h (.start tcpSock listener reason recvBuffer tables)).Reach FreshIo s)
    {io io' : Io} {c : ℕ} (hfresh : s.transfer.Fresh io.toWalkIo) (hoff : s.Offered io c)
    {between : List (LoopAct σ)} (hb : ∀ a ∈ between, a.Outside)
    (hrun : (loopMachine k h (.start tcpSock listener reason recvBuffer tables)).run between
      (k.iteration h io s) = some s')
    (hfresh' : s'.transfer.Fresh io'.toWalkIo) (hquiet : s'.Quiet io' c) :
    (((k.iteration h io s).OnAcceptList c ∨ (k.iteration h io s).Registered c) ∧
        (k.iteration h io' s').Registered c) ↔
      k ≠ .jobMonitorEtransfer := by
  have hg : FreshIo s (.iteration io) := hfresh
  have hreach := (hs.step hg rfl).run (guardedRun_of_outside _ hb _) hrun
  have hidle := idle_of_reach hs
  have hidle' := idle_of_reach hreach
  constructor
  · -- the loop that does not walk registers nothing
    rintro ⟨-, p, up, hup, -⟩ hk
    rw [(hidle'.iteration hfresh').2 hk p] at hup
    cases hup
  · intro hk
    have hwalks := Service.walks_of_ne hk
    obtain ⟨tables₁, heq⟩ := k.iteration_eq h io s
    obtain ⟨tables₂, heq'⟩ := k.iteration_eq h io' s'
    have hfirst : (k.iteration h io s).Awaited c := by
      rw [heq, hwalks]
      exact (ServiceLoop.awaited_of_offered (k.serves_onSocket h) hidle.1 hfresh hoff).setTables _
    have hawait : s'.Awaited c := awaited_of_outside hfirst hb hrun
    refine ⟨.inr hfirst.registered, ?_⟩
    rw [heq']
    exact (hawait.iterate (k.serves_onSocket h) hidle'.1 k.walks hfresh' hquiet).setTables _

end Loops

/-! ### One connection -/

/-- The kernel reports the port readable and accepts on it; no other descriptor is
ready. -/
def offerIo : Io where
  ready := some ⟨fun _ => true, fun _ => false, fun _ => false⟩
  accept := some 7
  addr := 200
  reason := 0
  polls := fun _ => ⟨fun _ => false, fun _ => false⟩
  recv := fun _ => .error eagain
  send := fun _ => .error eagain
  malloc := fun p => (1000 + p, [])

/-- The kernel reports nothing. -/
def quietIo : Io where
  ready := none
  accept := none
  addr := 300
  reason := 0
  polls := fun _ => ⟨fun _ => false, fun _ => false⟩
  recv := fun _ => .error eagain
  send := fun _ => .error eagain
  malloc := fun p => (1000 + p, [])

/-- A loop after `init_tcp`, and the first client. -/
def oneClient : ServiceLoop Unit :=
  let s := ServiceLoop.start 3 100 0 [] ()
  { s with transfer := s.transfer.arrive }

/-- No tables. -/
def noTables : Handlers Unit where
  jobMonitor := fun _ fresh _ => ((), fresh)
  jobResult := fun _ _ => ()
  hostMonitor := fun _ fresh _ => ((), fresh)
  hostStatus := fun _ _ => ()

lemma reach_oneClient (k : Service) :
    (loopMachine k noTables (.start 3 100 0 [] ())).Reach FreshIo oneClient :=
  .step (l := .connect) .init trivial rfl

lemma offered_oneClient : oneClient.Offered offerIo 0 :=
  ⟨⟨[], rfl⟩, ⟨_, rfl, rfl⟩, ⟨7, rfl⟩⟩

lemma fresh_oneClient : oneClient.transfer.Fresh offerIo.toWalkIo :=
  ⟨fun _ _ => rfl, by decide⟩

/-- `job_queue_result_1` after an iteration. -/
def oneIteration : ServiceLoop Unit := Service.jobQueueResult1.iteration noTables offerIo oneClient

lemma fresh_oneIteration : oneIteration.transfer.Fresh quietIo.toWalkIo where
  accept _ hacc := by cases hacc
  addr := by decide +kernel

lemma quiet_oneIteration : oneIteration.Quiet quietIo 0 := by
  refine fun fd _ => ⟨fun r hr => ?_, fun k => ⟨rfl, rfl⟩⟩
  cases hr

theorem takes_in_iff_jobQueueResult :
    ((oneIteration.OnAcceptList 0 ∨ oneIteration.Registered 0) ∧
      (Service.jobQueueResult1.iteration noTables quietIo oneIteration).Registered 0) ↔
      Service.jobQueueResult1 ≠ .jobMonitorEtransfer :=
  takes_in_iff (reach_oneClient .jobQueueResult1) fresh_oneClient offered_oneClient
    (List.forall_mem_nil _) rfl fresh_oneIteration quiet_oneIteration

/-- In `job_monitor_etransfer` the connection stays on the port. -/
theorem jobMonitor_leaves_waiting :
    ∃ s : ServiceLoop Unit,
      (loopMachine .jobMonitorEtransfer noTables (.start 3 100 0 [] ())).Reach FreshIo s ∧
      s.transfer.Fresh offerIo.toWalkIo ∧ s.Offered offerIo 0 ∧
      ¬((Service.jobMonitorEtransfer.iteration noTables offerIo s).OnAcceptList 0 ∨
        (Service.jobMonitorEtransfer.iteration noTables offerIo s).Registered 0) := by
  refine ⟨oneClient, reach_oneClient _, fresh_oneClient, offered_oneClient, ?_⟩
  have hidle := (idle_of_reach (reach_oneClient .jobMonitorEtransfer)).iteration
    (h := noTables) fresh_oneClient
  rintro (⟨p, hp, -⟩ | ⟨p, up, hup, -⟩)
  · rw [hidle.1.accepts] at hp
    cases hp
  · rw [hidle.2 rfl p] at hup
    cases hup

end Epbs
