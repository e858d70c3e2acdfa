/-
What becomes of the descriptors of the connections that a service loop is done with.

* `Destroys`: a call puts only sockets of a set on `m_destroy_list`;
* `Kept`: every socket of `m_tcp_map` is open under its descriptor, every destroyed
  socket is in the map, and the map has one descriptor for each connection accepted;
* `holding_of_reach`: so it is in every state of the four loops, none of which calls
  `do_destroy_sockets`;
* `destroyed_stays_open`: a destroyed socket is not released by the next iteration;
* `descriptors_accumulate`: `m_tcp_map` counts all connections that were accepted.
-/
import Epbs.Transfer.Intake

namespace Epbs

namespace ETransfer

/-! ### The destroy list -/

/-- No client comes, and what is put on `m_destroy_list` are sockets in `S`. -/
structure Destroys (S : Set Ptr) (t t' : ETransfer) : Prop where
  arrived : t'.arrived = t.arrived
  listed : ∀ p ∈ t'.mDestroyList, p ∈ t.mDestroyList ∨ p ∈ S

namespace Destroys

variable {S S' : Set Ptr} {t t' t'' : ETransfer}

/-- A call that leaves the list alone. -/
lemma of_eq (harrived : t'.arrived = t.arrived) (hlist : t'.mDestroyList = t.mDestroyList) :
    Destroys S t t' := by
  refine ⟨harrived, fun p hp => ?_⟩
  rw [hlist] at hp
  exact .inl hp

protected lemma refl (S : Set Ptr) (t : ETransfer) : Destroys S t t := of_eq rfl rfl

protected lemma trans (h : Destroys S t t') (h' : Destroys S t' t'') : Destroys S t t'' where
  arrived := h'.arrived.trans h.arrived
  listed p hp := by
    rcases h'.listed p hp with hold | hnew
    · exact h.listed p hold
    · exact .inr hnew

lemma mono (h : Destroys S t t') (hS : S ⊆ S') : Destroys S' t t' :=
  { h with listed := fun p hp => (h.listed p hp).imp_right fun hmem => hS hmem }

/-- A fold of updates of sockets. -/
lemma foldl_setSock {α : Type*} (f : α → Ptr) (g : α → UTcpSocket → UTcpSocket) (xs : List α)
    (t : ETransfer) : Destroys S t (xs.foldl (fun t x => t.setSock (f x) (g x)) t) := by
  induction xs generalizing t with
  | nil => exact .refl S t
  | cons x xs ih =>
      have hhead : Destroys S t (t.setSock (f x) (g x)) := .of_eq rfl rfl
      exact hhead.trans (ih _)

end Destroys

variable {S : Set Ptr} {t t' : ETransfer}

lemma destroys_destroySocket (t : ETransfer) (p : Ptr) : Destroys {p} t (t.destroySocket p) :=
  ⟨rfl, fun _ hq => (List.mem_append.mp hq).imp_right fun hmem => List.mem_singleton.mp hmem⟩

lemma destroys_recv (t : ETransfer) (p : Ptr) (len : ℕ) (answer : RecvAnswer) :
    Destroys S t (t.recv p len answer).1 := by
  rw [recv.eq_def]
  split_ifs
  · exact .refl S t
  · cases answer with
    | error errno => exact .of_eq rfl rfl
    | data bytes =>
        simp only
        split_ifs
        · exact .of_eq rfl rfl
        · exact .refl S t

lemma destroys_send (t : ETransfer) (p : Ptr) (buf : Bytes) (answer : SendAnswer) :
    Destroys S t (t.send p buf answer).1 := by
  rw [send.eq_def]
  split_ifs
  · exact .refl S t
  · cases answer with
    | error errno => exact .of_eq rfl rfl
    | sent n => exact .of_eq rfl rfl

lemma destroys_select (t : ETransfer) (polls : ℕ → Poll) (src : List Upoll) :
    Destroys S t (t.select polls src).1 := by
  rw [select]
  simp only
  split_ifs
  · exact .refl S t
  · exact .foldl_setSock _ _ src t

/-- The part of `walk_through` after the listening. -/
lemma destroys_walked (t : ETransfer) (io : WalkIo) :
    Destroys S (t.listened io) (t.walkThrough io) := by
  rcases walkThrough_eq t io with heq | ⟨r, sets, -, -, heq⟩
  · rw [heq]
    exact .refl S _
  · rw [heq]
    exact .foldl_setSock id (fun _ => procSocket sets) _ _

/-! ### What the map keeps -/

/-- `m_tcp_map` has its entries still. -/
def Grows (t t' : ETransfer) : Prop :=
  ∀ (fd : ℤ) (p : Ptr), t.mTcpMap[fd]? = some p → t'.mTcpMap[fd]? = some p

lemma Grows.mem (h : t.Grows t') {p : Ptr} (hp : p ∈ t.tcpSockets) : p ∈ t'.tcpSockets :=
  mem_tcpSockets.mpr ((mem_tcpSockets.mp hp).imp fun fd hfd => h fd p hfd)

/-- The sockets of `m_tcp_map` are open under their descriptors; the destroyed sockets
are among them, and so is one for each connection taken off the port. -/
structure Kept (t : ETransfer) : Prop where
  entries : ∀ (fd : ℤ) (p : Ptr), t.mTcpMap[fd]? = some p →
    (t.sockets p).map (·.mSock) = some fd ∧ (t.conn fd).isSome
  destroyed : ∀ p ∈ t.mDestroyList, p ∈ t.tcpSockets
  count : t.mTcpMap.size + t.backlog.length = t.arrived

namespace Kept

/-- Calls that destroy sockets of the map keep it. -/
lemma touches (h : t.Kept) (ht : Touches S t t') (hd : Destroys S t t')
    (hS : ∀ p ∈ S, p ∈ t.tcpSockets) : t'.Kept where
  entries fd p hp := by
    rw [ht.mTcpMap] at hp
    rw [ht.mSock, ht.conn]
    exact h.entries fd p hp
  destroyed p hp := by
    rw [tcpSockets, ht.mTcpMap]
    exact (hd.listed p hp).elim (h.destroyed p) (hS p)
  count := by rw [ht.mTcpMap, ht.backlog, hd.arrived, h.count]

/-- A new descriptor is not in the map. -/
lemma unused (h : t.Kept) {io : WalkIo} (hfresh : t.Fresh io) {newSock : ℕ}
    (hacc : io.accept = some newSock) (p : Ptr) : t.mTcpMap[(newSock : ℤ)]? ≠ some p := by
  intro hp
  have hopen := (h.entries newSock p hp).2
  rw [hfresh.accept newSock hacc] at hopen
  cases hopen

/-- A new connection gets an entry of its own, and none is written over: the kernel answers
`accept` with a descriptor that is not open, and those in the map are. -/
lemma newSocket (h : t.Kept) {io : WalkIo} (hfresh : t.Fresh io) {newSock c : ℕ}
    {rest : List ℕ} (hlog : t.backlog = c :: rest) (hacc : io.accept = some newSock) :
    (t.newSocket io newSock c rest).Kept ∧ t.Grows (t.newSocket io newSock c rest) := by
  have hunused := h.unused hfresh hacc
  have hgrows : t.Grows (t.newSocket io newSock c rest) := by
    intro fd p hfd
    have hne : (newSock : ℤ) ≠ fd := by
      rintro rfl
      exact hunused p hfd
    rw [ETransfer.newSocket, Std.TreeMap.getElem?_insert,
      if_neg (mt Std.LawfulEqCmp.compare_eq_iff_eq.mp hne)]
    exact hfd
  have hold : ∀ (p : Ptr) (fd : ℤ), t.mTcpMap[fd]? = some p → p ≠ io.addr := by
    rintro p fd hp rfl
    have hsome := (h.entries fd _ hp).1
    rw [hfresh.addr] at hsome
    cases hsome
  refine ⟨⟨fun fd p hp => ?_, fun p hp => hgrows.mem (h.destroyed p hp), ?_⟩, hgrows⟩
  · rw [ETransfer.newSocket, Std.TreeMap.getElem?_insert] at hp
    split_ifs at hp with heq
    · obtain rfl := Std.LawfulEqCmp.compare_eq_iff_eq.mp heq
      obtain rfl := Option.some.inj hp
      simp [ETransfer.newSocket, UTcpSocket.bind]
    · have hne : fd ≠ newSock := fun hc => heq (Std.LawfulEqCmp.compare_eq_iff_eq.mpr hc.symm)
      obtain ⟨hsock, hopen⟩ := h.entries fd p hp
      rw [sockets_newSocket (hold p fd hp)]
      refine ⟨hsock, ?_⟩
      simpa [ETransfer.newSocket, hne] using hopen
  · have hcount := h.count
    rw [hlog, List.length_cons] at hcount
    have hsize : (t.newSocket io newSock c rest).mTcpMap.size = t.mTcpMap.size + 1 := by
      rw [ETransfer.newSocket, Std.TreeMap.size_insert, if_neg]
      rw [← Std.TreeMap.mem_iff_contains, Std.TreeMap.mem_iff_isSome_getElem?]
      intro hsome
      obtain ⟨p, hp⟩ := Option.isSome_iff_exists.mp hsome
      exact hunused p hp
    rw [hsize]
    simp only [ETransfer.newSocket]
    omega

/-- The walk keeps the map, and what was in it. -/
lemma walkThrough (h : t.Kept) {io : WalkIo} (hfresh : t.Fresh io) :
    (t.walkThrough io).Kept ∧ t.Grows (t.walkThrough io) ∧
      ∀ p ∈ (t.walkThrough io).mTcpAcceptList,
        p ∈ t.mTcpAcceptList ∨ p ∈ (t.walkThrough io).tcpSockets := by
  have htouch := touches_walkThrough t io
  have hdes := destroys_walked (S := ∅) t io
  have hsockets : (t.walkThrough io).tcpSockets = (t.listened io).tcpSockets := by
    rw [tcpSockets, htouch.mTcpMap, tcpSockets]
  rw [Grows, htouch.mTcpMap, hsockets, htouch.mTcpAcceptList]
  rcases t.listened_cases io with heq | ⟨newSock, c, rest, hlog, hacc, heq⟩
  · rw [heq] at htouch hdes ⊢
    exact ⟨h.touches htouch (hdes.mono (Set.empty_subset _)) fun _ hp => hp,
      fun _ _ hp => hp, fun p hp => .inl hp⟩
  · rw [heq] at htouch hdes ⊢
    obtain ⟨hnew, hgrows⟩ := h.newSocket hfresh hlog hacc
    refine ⟨hnew.touches htouch (hdes.mono (Set.empty_subset _)) fun _ hp => hp, hgrows,
      fun p hp => ?_⟩
    rcases List.mem_append.mp hp with hold | hone
    · exact .inl hold
    · rw [List.mem_singleton.mp hone]
      refine .inr (mem_tcpSockets.mpr ⟨newSock, ?_⟩)
      rw [ETransfer.newSocket, Std.TreeMap.getElem?_insert_self]

end Kept

end ETransfer

/-! ### The loops -/

namespace ServiceLoop

variable {σ : Type*}

/-- What a loop does for an event destroys at most the socket of the event. -/
def Disposes (onSocket : Io → Upoll → ServiceLoop σ → ServiceLoop σ) : Prop :=
  ∀ io up s, ETransfer.Destroys {up.usock} s.transfer (onSocket io up s).transfer

section Calls

variable (s : ServiceLoop σ) (io : Io) (p : Ptr)

lemma destroys_destroy : ETransfer.Destroys {p} s.transfer (s.destroy p).transfer :=
  ETransfer.destroys_destroySocket _ p

lemma destroys_receive {S : Set Ptr} :
    ETransfer.Destroys S s.transfer (s.receive io p).1.transfer :=
  ETransfer.destroys_recv _ p _ _

lemma destroys_sendReply (up : Upoll) :
    ETransfer.Destroys {up.usock} s.transfer (s.sendReply io up).transfer := by
  rw [sendReply]
  refine .trans ?_ (destroys_destroy _ up.usock)
  exact ETransfer.destroys_send _ up.usock _ _

end Calls

lemma disposes_jobMonitorSocket (h : Handlers σ) : Disposes (jobMonitorSocket h) := by
  intro io up s
  have hrecv := destroys_receive s io up.usock (S := {up.usock})
  rw [jobMonitorSocket]
  by_cases hwrite : up.has upollWriteT
  · rw [if_pos hwrite]
    exact destroys_sendReply s io up
  rw [if_neg hwrite]
  by_cases hread : up.has upollReadT
  · rw [if_pos hread]
    simp only
    split_ifs
    · exact hrecv.trans (destroys_destroy _ _)
    · exact hrecv.trans (destroys_destroy _ _)
    · exact hrecv.trans (destroys_destroy _ _)
    · exact hrecv
    · exact hrecv
  · rw [if_neg hread]
    exact .refl _ _

lemma disposes_jobQueueResultSocket (h : Handlers σ) : Disposes (jobQueueResultSocket h) := by
  intro io up s
  rw [jobQueueResultSocket]
  split_ifs
  · exact (destroys_receive s io up.usock).trans (destroys_destroy _ _)
  · exact destroys_destroy s _
  · exact destroys_destroy s _
  · exact .refl _ _

lemma disposes_hostMonitorSocket (h : Handlers σ) : Disposes (hostMonitorSocket h) := by
  intro io up s
  have hrecv := destroys_receive s io up.usock (S := {up.usock})
  rw [hostMonitorSocket]
  by_cases hread : up.has upollReadT
  · rw [if_pos hread]
    simp only
    split_ifs
    · exact hrecv
    · exact hrecv
  · rw [if_neg hread]
    split_ifs
    · exact destroys_sendReply s io up
    · exact destroys_destroy s _
    · exact .refl _ _

lemma disposes_epbsHostStatusSocket : Disposes (σ := σ) epbsHostStatusSocket := by
  intro io up s
  rw [epbsHostStatusSocket]
  split_ifs
  · exact (destroys_receive s io up.usock).trans (destroys_destroy _ _)
  · exact .refl _ _

/-- Events of connections in `S`. -/
lemma destroys_foldl {onSocket : Io → Upoll → ServiceLoop σ → ServiceLoop σ}
    (hdis : Disposes onSocket) (io : Io) {S : Set Ptr} {dst : List Upoll}
    (hdst : ∀ up ∈ dst, up.usock ∈ S) (s : ServiceLoop σ) :
    ETransfer.Destroys S s.transfer
      (dst.foldl (fun s up => onSocket io up s) s).transfer := by
  induction dst generalizing s with
  | nil => exact .refl S _
  | cons up dst ih =>
      have hhead := (hdis io up s).mono (Set.singleton_subset_iff.mpr (hdst up List.mem_cons_self))
      exact hhead.trans (ih (fun up' hup' => hdst up' (List.mem_cons_of_mem up hup')) _)

/-- The eTransfer keeps its sockets, and the loop's own map names some of them. -/
structure Holding (s : ServiceLoop σ) : Prop where
  kept : s.transfer.Kept
  registered : ∀ p up, s.mTcpMap[p]? = some up → p ∈ s.transfer.tcpSockets

/-- The other threads, and what is kept of a loop. -/
lemma Holding.setTables {s : ServiceLoop σ} (h : s.Holding) (tables : σ) :
    (s.setTables tables).Holding := ⟨h.kept, h.registered⟩

/-- The walk keeps the sockets, and the sockets it offers are among them. -/
lemma Holding.walked {s : ServiceLoop σ} (h : s.Holding) (hs : s.Attended) (walks : Bool)
    {io : Io} (hfresh : s.transfer.Fresh io.toWalkIo) :
    (s.walked walks io).Kept ∧ s.transfer.Grows (s.walked walks io) ∧
      ∀ p ∈ (s.walked walks io).mTcpAcceptList, p ∈ (s.walked walks io).tcpSockets := by
  cases walks with
  | false =>
      refine ⟨h.kept, fun _ _ hp => hp, fun p hp => ?_⟩
      have hnone : s.transfer.mTcpAcceptList = [] := hs.accepts
      rw [show s.walked false io = s.transfer from rfl, hnone] at hp
      cases hp
  | true =>
      obtain ⟨hkept, hgrows, haccepts⟩ := h.kept.walkThrough hfresh
      refine ⟨hkept, hgrows, fun p hp => (haccepts p hp).resolve_left ?_⟩
      rw [hs.accepts]
      exact List.not_mem_nil

/-- Taking a connection from the accept list keeps the sockets, if it is one of them. -/
lemma Holding.acceptConnection {s : ServiceLoop σ} (h : s.Holding)
    (haccepts : ∀ p ∈ s.transfer.mTcpAcceptList, p ∈ s.transfer.tcpSockets) :
    s.acceptConnection.Holding ∧ s.acceptConnection.transfer.mTcpMap = s.transfer.mTcpMap := by
  cases hlist : s.transfer.mTcpAcceptList with
  | nil =>
      rw [acceptConnection_of_nil hlist]
      exact ⟨h, rfl⟩
  | cons p rest =>
      have hp : p ∈ s.transfer.tcpSockets := by
        refine haccepts p ?_
        rw [hlist]
        exact List.mem_cons_self
      rw [ServiceLoop.acceptConnection, ETransfer.accept_of_cons hlist]
      have htouch : ETransfer.Touches {p} { s.transfer with mTcpAcceptList := rest }
          { (s.transfer.setSock p fun s => { s with mStatus := .connected }) with
            mTcpAcceptList := rest } :=
        .setSock { s.transfer with mTcpAcceptList := rest } (fun _ => rfl)
          fun hc => absurd rfl hc
      have hkept : ETransfer.Kept { s.transfer with mTcpAcceptList := rest } :=
        ⟨h.kept.entries, h.kept.destroyed, h.kept.count⟩
      refine ⟨⟨hkept.touches htouch (.of_eq rfl rfl) fun q hq => ?_, fun q up hup => ?_⟩, rfl⟩
      · exact Set.mem_singleton_iff.mp hq ▸ hp
      · rw [Std.TreeMap.getElem?_insert] at hup
        split_ifs at hup with hq
        · obtain rfl := Std.LawfulEqCmp.compare_eq_iff_eq.mp hq
          exact hp
        · exact h.registered q up hup

/-- **An iteration** keeps the sockets, those it destroys included: to destroy a socket is to put it
on a list, and nothing takes it from there. -/
lemma Holding.iterate {onSocket : Io → Upoll → ServiceLoop σ → ServiceLoop σ}
    (hon : Serves onSocket) (hdis : Disposes onSocket) {s : ServiceLoop σ} (h : s.Holding)
    (hs : s.Attended) (walks : Bool) {io : Io} (hfresh : s.transfer.Fresh io.toWalkIo) :
    (ServiceLoop.iterate walks onSocket io s).Holding ∧
      s.transfer.Grows (ServiceLoop.iterate walks onSocket io s).transfer := by
  obtain ⟨hwalk, hgrows, haccepts⟩ := h.walked hs walks hfresh
  -- the events are those of registered connections
  obtain ⟨k, heq⟩ := iterate_eq hon hs.toSound walks hfresh
  obtain ⟨hselect, hlistener⟩ := hs.toSound.selected walks hfresh
  set S : Set Ptr := {p | ∃ up, s.mTcpMap[p]? = some up} with hS
  have hdst : ∀ up ∈ s.connEvents walks io k, up.usock ∈ S ∧
      up.usock ≠ (s.selected walks io).transfer.mTcpListener := by
    intro up hup
    obtain ⟨it, hit, -, hne, -⟩ := mem_connEvents hs.toSound hup
    rw [hlistener]
    exact ⟨⟨it, hit⟩, hne⟩
  have hin : ∀ p ∈ S, p ∈ (s.walked walks io).tcpSockets := by
    rintro p ⟨up, hup⟩
    exact hgrows.mem (h.registered p up hup)
  -- what the handlers of the events do
  have hserved := served_foldl hon io hdst
  rw [foldl_onEvent hon io fun up hup => (hdst up hup).2] at hserved
  have hdes := destroys_foldl hdis io (fun up hup => (hdst up hup).1) (s.selected walks io)
  have hsel : ETransfer.Destroys S (s.walked walks io) (s.selected walks io).transfer :=
    ETransfer.destroys_select _ _ _
  rw [heq]
  set s₂ := (s.connEvents walks io k).foldl (fun s up => onSocket io up s) (s.selected walks io)
  have htotal : Served S { s with transfer := s.walked walks io } s₂ :=
    (hselect.mono (Set.empty_subset _)).trans hserved
  have hsockets : s₂.transfer.tcpSockets = (s.walked walks io).tcpSockets := by
    rw [ETransfer.tcpSockets, htotal.touches.mTcpMap]
    rfl
  have hserves : s₂.Holding := by
    refine ⟨hwalk.touches htotal.touches (hsel.trans hdes) hin, fun p up hup => ?_⟩
    rw [hsockets]
    rcases htotal.own p up hup with hold | ⟨hserved, -⟩
    · exact hgrows.mem (h.registered p up hold)
    · exact hin p hserved
  -- the listener's event comes last
  have haccepts₂ : ∀ p ∈ s₂.transfer.mTcpAcceptList, p ∈ s₂.transfer.tcpSockets := by
    rw [hsockets, htotal.touches.mTcpAcceptList]
    exact haccepts
  obtain ⟨hholding, hsame⟩ := hserves.acceptConnection haccepts₂
  refine ⟨hholding, ?_⟩
  rw [ETransfer.Grows, hsame, htotal.touches.mTcpMap]
  exact hgrows

end ServiceLoop

lemma Service.disposes_onSocket {σ : Type*} (k : Service) (h : Handlers σ) :
    ServiceLoop.Disposes (k.onSocket h) := by
  cases k with
  | jobMonitorEtransfer => exact ServiceLoop.disposes_jobMonitorSocket h
  | jobQueueResult1 => exact ServiceLoop.disposes_jobQueueResultSocket h
  | hostMonitorTransfer2 => exact ServiceLoop.disposes_hostMonitorSocket h
  | epbsHostStatus => exact ServiceLoop.disposes_epbsHostStatusSocket

/-! ### Release -/

/-- The descriptor that a socket had is closed, and the socket is not in the eTransfer's
`m_tcp_map`. -/
def ETransfer.Released (t : ETransfer) (p : Ptr) (fd : ℤ) : Prop :=
  t.conn fd = none ∧ p ∉ t.tcpSockets

section Releases

variable {σ : Type*} {k : Service} {h : Handlers σ} {tcpSock : ℕ} {listener : Ptr} {reason : ℤ}
  {recvBuffer : Bytes} {tables : σ} {s s' : ServiceLoop σ}

/-- A destroyed socket is released by the next full iteration. -/
def ReleasesDestroyed (k : Service) (h : Handlers σ) (start : ServiceLoop σ) : Prop :=
  ∀ s, (loopMachine k h start).Reach FreshIo s → ∀ io, s.transfer.Fresh io.toWalkIo →
    ∀ p, p ∉ s.transfer.mDestroyList → p ∈ (k.iteration h io s).transfer.mDestroyList →
    ∀ between s', (∀ a ∈ between, LoopAct.Outside a) →
      (loopMachine k h start).run between (k.iteration h io s) = some s' →
    ∀ io', s'.transfer.Fresh io'.toWalkIo →
      (k.iteration h io' s').transfer.Released p
        ((k.iteration h io s).transfer.sock p).mSock

/-- A client connects. -/
lemma ETransfer.Kept.arrive {t : ETransfer} (h : t.Kept) : t.arrive.Kept := by
  refine ⟨h.entries, h.destroyed, ?_⟩
  have hcount := h.count
  simp only [ETransfer.arrive, List.length_append, List.length_singleton]
  omega

/-- **One iteration** of any of the loops keeps the sockets. -/
lemma Service.Idle.holding (hs : k.Idle s) (hold : s.Holding) {io : Io}
    (hfresh : s.transfer.Fresh io.toWalkIo) :
    (k.iteration h io s).Holding ∧ s.transfer.Grows (k.iteration h io s).transfer := by
  obtain ⟨tables, heq⟩ := k.iteration_eq h io s
  obtain ⟨hkept, hgrows⟩ :=
    hold.iterate (k.serves_onSocket h) (k.disposes_onSocket h) hs.1 k.walks hfresh
  rw [heq]
  exact ⟨hkept.setTables tables, hgrows⟩

/-- In every state of a loop its eTransfer keeps all sockets, also those that the loop itself has
forgotten. -/
lemma holding_of_reach
    (hs : (loopMachine k h (.start tcpSock listener reason recvBuffer tables)).Reach FreshIo s) :
    s.Holding := by
  refine hs.invariant (I := ServiceLoop.Holding) ?_ ?_
  · refine ⟨⟨fun fd p hp => ?_, fun p hp => ?_, rfl⟩, fun p up hup => ?_⟩
    · simp [loopMachine, ServiceLoop.start, ETransfer.opened] at hp
    · simp [loopMachine, ServiceLoop.start, ETransfer.opened] at hp
    · simp [loopMachine, ServiceLoop.start] at hup
  · intro s l s' hreach hold hg hstep
    cases l with
    | connect =>
        obtain rfl := Option.some.inj hstep
        exact ⟨hold.kept.arrive, hold.registered⟩
    | others tables =>
        obtain rfl := Option.some.inj hstep
        exact hold.setTables tables
    | iteration io =>
        obtain rfl := Option.some.inj hstep
        exact ((idle_of_reach hreach).holding hold hg).1

/-- Outside the iterations `m_tcp_map` is as it was. -/
lemma mTcpMap_of_outside {between : List (LoopAct σ)} {start : ServiceLoop σ}
    (hb : ∀ a ∈ between, a.Outside) (hrun : (loopMachine k h start).run between s = some s') :
    s'.transfer.mTcpMap = s.transfer.mTcpMap := by
  induction between generalizing s with
  | nil =>
      cases hrun
      rfl
  | cons a between ih =>
      obtain ⟨t, ht, hrest⟩ := Option.bind_eq_some_iff.mp hrun
      have htail := ih (fun b hb' => hb b (List.mem_cons_of_mem a hb')) hrest
      cases a with
      | iteration io => exact (hb _ List.mem_cons_self).elim
      | connect =>
          obtain rfl := Option.some.inj ht
          exact htail
      | others tables =>
          obtain rfl := Option.some.inj ht
          exact htail

/-- **A destroyed socket stays open**: after the iteration that destroys it and the next
full iteration, its descriptor is open and it is in the eTransfer's `m_tcp_map`; so it is
in all four loops, in every run. -/
theorem destroyed_stays_open
    (hs : (loopMachine k h (.start tcpSock listener reason recvBuffer tables)).Reach FreshIo s)
    {io io' : Io} (hfresh : s.transfer.Fresh io.toWalkIo) {p : Ptr}
    (hp : p ∈ (k.iteration h io s).transfer.mDestroyList) {between : List (LoopAct σ)}
    (hb : ∀ a ∈ between, a.Outside)
    (hrun : (loopMachine k h (.start tcpSock listener reason recvBuffer tables)).run between
      (k.iteration h io s) = some s')
    (hfresh' : s'.transfer.Fresh io'.toWalkIo) :
    (k.iteration h io' s').transfer.conn ((k.iteration h io s).transfer.sock p).mSock ≠ none ∧
      p ∈ (k.iteration h io' s').transfer.tcpSockets := by
  have hg : FreshIo s (.iteration io) := hfresh
  have hreach₁ := hs.step hg rfl
  have hreach₂ := hreach₁.run (guardedRun_of_outside _ hb _) hrun
  have hold₁ : (k.iteration h io s).Holding := holding_of_reach hreach₁
  -- destroyed, and still in the map under its descriptor
  obtain ⟨fd, hfd⟩ := ETransfer.mem_tcpSockets.mp (hold₁.kept.destroyed p hp)
  have hsock : ((k.iteration h io s).transfer.sock p).mSock = fd := by
    obtain ⟨u, hu, heq⟩ := Option.map_eq_some_iff.mp (hold₁.kept.entries fd p hfd).1
    rw [ETransfer.sock, hu, Option.getD_some, heq]
  have hfd₂ : s'.transfer.mTcpMap[fd]? = some p := by
    rw [mTcpMap_of_outside hb hrun]
    exact hfd
  obtain ⟨hold₃, hgrows⟩ :=
    (idle_of_reach hreach₂).holding (h := h) (holding_of_reach hreach₂) hfresh'
  have hfd₃ := hgrows fd p hfd₂
  have hopen := (hold₃.kept.entries fd p hfd₃).2
  rw [hsock]
  refine ⟨fun hc => ?_, ETransfer.mem_tcpSockets.mpr ⟨fd, hfd₃⟩⟩
  rw [hc] at hopen
  cases hopen

/-- **The descriptors accumulate**: the eTransfer of a loop has one for each connection
that was taken off the port, however many of them were destroyed. -/
theorem descriptors_accumulate
    (hs : (loopMachine k h (.start tcpSock listener reason recvBuffer tables)).Reach FreshIo s) :
    s.transfer.mTcpMap.size + s.transfer.backlog.length = s.transfer.arrived :=
  (holding_of_reach hs).kept.count

end Releases

/-! ### One connection -/

/-- The client's report arrives. -/
def reportIo : Io where
  ready := none
  accept := none
  addr := 300
  reason := 0
  polls := fun _ => ⟨fun _ => true, fun _ => true⟩
  recv := fun _ => .data (List.replicate 24 0)
  send := fun _ => .error eagain
  malloc := fun p => (1000 + p, [])

/-- `job_queue_result_1` after the iteration that reads the report. -/
def reportRead : ServiceLoop Unit :=
  Service.jobQueueResult1.iteration noTables reportIo oneIteration

lemma reach_oneIteration :
    (loopMachine .jobQueueResult1 noTables (.start 3 100 0 [] ())).Reach FreshIo oneIteration :=
  .step (l := .iteration offerIo) (reach_oneClient _) fresh_oneClient rfl

lemma fresh_reportIo : oneIteration.transfer.Fresh reportIo.toWalkIo where
  accept _ hacc := by cases hacc
  addr := by decide +kernel

lemma fresh_reportRead : reportRead.transfer.Fresh quietIo.toWalkIo where
  accept _ hacc := by cases hacc
  addr := by decide +kernel

/-- The connection was destroyed. -/
lemma destroyed_reportRead : (200 : Ptr) ∈ reportRead.transfer.mDestroyList := by decide +kernel

theorem destroyed_stays_open_jobQueueResult :
    (Service.jobQueueResult1.iteration noTables quietIo reportRead).transfer.conn
        (reportRead.transfer.sock 200).mSock ≠ none ∧
      200 ∈ (Service.jobQueueResult1.iteration noTables quietIo reportRead).transfer.tcpSockets :=
  destroyed_stays_open reach_oneIteration fresh_reportIo destroyed_reportRead
    (List.forall_mem_nil _) rfl fresh_reportRead

/-- In `job_queue_result_1` a connection that was served is not released: its descriptor is open
after the next full iteration. -/
theorem jobQueueResult_leaks :
    ¬ ReleasesDestroyed .jobQueueResult1 noTables (.start 3 100 0 [] ()) := by
  intro hall
  have hnew : (200 : Ptr) ∉ oneIteration.transfer.mDestroyList := by decide +kernel
  obtain ⟨-, hgone⟩ := hall oneIteration reach_oneIteration reportIo fresh_reportIo 200 hnew
    destroyed_reportRead [] reportRead (List.forall_mem_nil _) rfl quietIo fresh_reportRead
  have hthere : (200 : Ptr) ∈
      (Service.jobQueueResult1.iteration noTables quietIo reportRead).transfer.tcpSockets := by
    decide +kernel
  exact hgone hthere

end Epbs
