/-
The four TCP service loops (`libjobq.c`, `host_monitor.c`, `libhost.c`).

* `ServiceLoop`: what a loop keeps between its iterations: its `eTransfer`, its own
  `m_tcp_map`, its receive buffer, the reply buffers, and the tables it serves;
* `iterate`: one iteration, with what the loops differ in as parameters: whether they
  call `walk_through`, and what they do for an event of a connection;
* `jobMonitorEtransfer`, `jobQueueResult1`, `hostMonitorTransfer2`, `epbsHostStatus`:
  the four loops; what a request does to the tables is a parameter (`Handlers`);
* `Served`: events of connections change the records of these connections only;
* `serves_jobMonitorSocket`, `serves_jobQueueResultSocket`, `serves_hostMonitorSocket`,
  `serves_epbsHostStatusSocket`: so it is in each of the loops.
-/
import Mathlib.Tactic
import Epbs.Server.Messages
import Epbs.Transfer.Calls

namespace Epbs

/-- The answers of the kernel and of the allocator during one iteration: those of
`walk_through`, of the polls of `select`, of `::recv` and `::send` on a descriptor,
and of the `malloc` of a reply buffer for a socket: its address and its content. -/
structure Io extends WalkIo where
  polls : ℕ → Poll
  recv : ℤ → RecvAnswer
  send : ℤ → SendAnswer
  malloc : Ptr → Ptr × Bytes

/-- What the loops do to the tables they serve, of type `σ`.  A request of a client
is answered in a reply buffer, given with its content; a report of a node is not
answered. -/
structure Handlers (σ : Type*) where
  jobMonitor : Bytes → Bytes → σ → σ × Bytes
  jobResult : Bytes → σ → σ
  hostMonitor : Bytes → Bytes → σ → σ × Bytes
  hostStatus : Bytes → σ → σ

/-- The state of a loop between two iterations. -/
structure ServiceLoop (σ : Type*) where
  transfer : ETransfer
  mTcpMap : Std.TreeMap Ptr Upoll
  recvSize : ℤ
  recvBuffer : Bytes
  buffers : Ptr → Option Bytes
  tables : σ

namespace ServiceLoop

variable {σ : Type*}

/-! ### What the loops share -/

/-- `ls_poll`. -/
def lsPoll (s : ServiceLoop σ) : Upoll where
  usock := s.transfer.mTcpListener
  events := upollReadT
  pointer := none

/-- `src`: the records of `m_tcp_map` in their order, and the listener. -/
def src (s : ServiceLoop σ) : List Upoll := s.mTcpMap.toList.map (·.2) ++ [s.lsPoll]

/-- `transfer->accept(tcp_listener)`: the socket, if there is one, is registered for
reading. -/
def acceptConnection (s : ServiceLoop σ) : ServiceLoop σ :=
  match s.transfer.accept (some s.transfer.mTcpListener) with
  | (t, some sc) =>
      { s with
        transfer := t
        mTcpMap := s.mTcpMap.insert sc { usock := sc, events := upollReadT, pointer := none } }
  | (t, none) => { s with transfer := t }

/-- `transfer->destroy_socket(it->usock); m_tcp_map.erase(it->usock);` -/
def destroy (s : ServiceLoop σ) (p : Ptr) : ServiceLoop σ :=
  { s with transfer := s.transfer.destroySocket p, mTcpMap := s.mTcpMap.erase p }

/-- `it->usock->recv(recv_buffer,MSG_BUFF_SIZE,NULL)`, and its result. -/
def receive (s : ServiceLoop σ) (io : Io) (p : Ptr) : ServiceLoop σ × ℤ :=
  let (t, bytes, size) := s.transfer.recv p msgBuffSize (io.recv (s.transfer.sock p).mSock)
  ({ s with transfer := t, recvBuffer := bytes ++ s.recvBuffer.drop bytes.length }, size)

/-- A reply buffer is allocated, and its socket registered for writing; then the
request fills the buffer. -/
def prepareReply (s : ServiceLoop σ) (io : Io) (p : Ptr)
    (handle : Bytes → Bytes → σ → σ × Bytes) : ServiceLoop σ :=
  let (sendBuffer, fresh) := io.malloc p
  let (tables, reply) := handle s.recvBuffer fresh s.tables
  { s with
    mTcpMap := s.mTcpMap.insert p
      { usock := p, events := upollWriteT, pointer := some sendBuffer }
    buffers := Function.update s.buffers sendBuffer (some reply)
    tables := tables }

/-- The reply is sent and its buffer freed; then the connection is destroyed. -/
def sendReply (s : ServiceLoop σ) (io : Io) (up : Upoll) : ServiceLoop σ :=
  let fd := (s.transfer.sock up.usock).mSock
  let reply := ((up.pointer.bind s.buffers).getD []).take msgBuffSize
  let t := (s.transfer.send up.usock reply (io.send fd)).1
  let buffers := up.pointer.elim s.buffers fun q => Function.update s.buffers q none
  destroy { s with transfer := t, buffers := buffers } up.usock

/-- The body of the loop over `dst`. -/
def onEvent (onSocket : Io → Upoll → ServiceLoop σ → ServiceLoop σ) (io : Io)
    (s : ServiceLoop σ) (up : Upoll) : ServiceLoop σ :=
  if up.usock = s.transfer.mTcpListener then
    if up.has upollReadT then s.acceptConnection else s
  else onSocket io up s

/-- One iteration of a loop.  `walks` says whether the loop calls `walk_through`. -/
def iterate (walks : Bool) (onSocket : Io → Upoll → ServiceLoop σ → ServiceLoop σ) (io : Io)
    (s : ServiceLoop σ) : ServiceLoop σ :=
  let src := s.src
  let t := if walks then s.transfer.walkThrough io.toWalkIo else s.transfer
  let (t, dst, res) := t.select io.polls src
  let s := { s with transfer := t }
  if 0 < res then dst.foldl (onEvent onSocket io) s else s

/-! ### The four loops -/

/-- An event of a connection in `job_monitor_etransfer`. -/
def jobMonitorSocket (h : Handlers σ) (io : Io) (up : Upoll) (s : ServiceLoop σ) :
    ServiceLoop σ :=
  if up.has upollWriteT then s.sendReply io up
  else if up.has upollReadT then
    let (s, recvSize) := s.receive io up.usock
    if msgBuffSize < recvSize then s.destroy up.usock
    else if recvSize < 0 ∧ (s.transfer.sock up.usock).mReason ≠ eagain then s.destroy up.usock
    else if up.has upollErrorT then s.destroy up.usock
    else if recvSize ≤ msgBuffSize ∧ 0 < recvSize then s.prepareReply io up.usock h.jobMonitor
    else s
  else s

/-- `job_monitor_etransfer`, which does not call `walk_through`. -/
def jobMonitorEtransfer (h : Handlers σ) : Io → ServiceLoop σ → ServiceLoop σ :=
  iterate false (jobMonitorSocket h)

/-- An event of a connection in `job_queue_result_1`.  The report is taken from the
receive buffer whatever `recv` returned. -/
def jobQueueResultSocket (h : Handlers σ) (io : Io) (up : Upoll) (s : ServiceLoop σ) :
    ServiceLoop σ :=
  if up.has upollReadT then
    let s := (s.receive io up.usock).1
    destroy { s with tables := h.jobResult s.recvBuffer s.tables } up.usock
  else if up.has upollWriteT then s.destroy up.usock
  else if up.has upollErrorT then s.destroy up.usock
  else s

/-- `job_queue_result_1`. -/
def jobQueueResult1 (h : Handlers σ) : Io → ServiceLoop σ → ServiceLoop σ :=
  iterate true (jobQueueResultSocket h)

/-- An event of a connection in `host_monitor_transfer_2`. -/
def hostMonitorSocket (h : Handlers σ) (io : Io) (up : Upoll) (s : ServiceLoop σ) :
    ServiceLoop σ :=
  if up.has upollReadT then
    let (s, recvSize) := s.receive io up.usock
    if 0 < recvSize then s.prepareReply io up.usock h.hostMonitor else s
  else if up.has upollWriteT then s.sendReply io up
  else if up.has upollErrorT then s.destroy up.usock
  else s

/-- `host_monitor_transfer_2`. -/
def hostMonitorTransfer2 (h : Handlers σ) : Io → ServiceLoop σ → ServiceLoop σ :=
  iterate true (hostMonitorSocket h)

/-- An event of a connection in `epbs_host_status`; the result of `recv` is kept. -/
def epbsHostStatusSocket (io : Io) (up : Upoll) (s : ServiceLoop σ) : ServiceLoop σ :=
  if up.has upollReadT then
    let (s, recvSize) := s.receive io up.usock
    destroy { s with recvSize := recvSize } up.usock
  else s

/-- `epbs_host_status`: the report in the receive buffer is handled at the end of the
iteration. -/
def epbsHostStatus (h : Handlers σ) (io : Io) (s : ServiceLoop σ) : ServiceLoop σ :=
  let s := iterate true epbsHostStatusSocket io s
  if 0 < s.recvSize then { s with tables := h.hostStatus s.recvBuffer s.tables } else s

/-! ### Events of connections -/

section Receive

variable {s : ServiceLoop σ} {io : Io} {p : Ptr}

/-- `recv` of bytes, over what was in the buffer. -/
lemma receive_data (hsound : (s.transfer.sock p).isError = false) {bytes : Bytes}
    (hrecv : io.recv (s.transfer.sock p).mSock = .data bytes)
    (hne : bytes.take msgBuffSize ≠ []) :
    s.receive io p =
      ({ s with
          recvBuffer := bytes.take msgBuffSize ++
            s.recvBuffer.drop (bytes.take msgBuffSize).length },
        ((bytes.take msgBuffSize).length : ℤ)) := by
  rw [receive, hrecv, ETransfer.recv.eq_def, hsound]
  simp only [Bool.false_eq_true, if_false, if_neg hne]

/-- `recv` at the end of the stream. -/
lemma receive_closed (hsound : (s.transfer.sock p).isError = false) {bytes : Bytes}
    (hrecv : io.recv (s.transfer.sock p).mSock = .data bytes)
    (hnil : bytes.take msgBuffSize = []) : (s.receive io p).2 = 0 := by
  rw [receive, hrecv, ETransfer.recv.eq_def, hsound]
  simp only [Bool.false_eq_true, if_false, if_pos hnil]

/-- `recv` that fails notes the error. -/
lemma receive_error (hsound : (s.transfer.sock p).isError = false) {errno : ℤ}
    (hrecv : io.recv (s.transfer.sock p).mSock = .error errno) :
    s.receive io p = ({ s with transfer := s.transfer.noteError p errno }, -1) := by
  rw [receive, hrecv, ETransfer.recv.eq_def, hsound]
  simp only [Bool.false_eq_true, if_false, List.length_nil, List.drop_zero, List.nil_append]

/-- A `recv` never takes more than the buffer. -/
lemma length_received (bytes : Bytes) :
    ¬(msgBuffSize : ℤ) < ((bytes.take msgBuffSize).length : ℤ) := by
  have hle := List.length_take_le msgBuffSize bytes
  omega

end Receive

/-- Events of the connections in `S` were handled: only their records changed, to
records of the same sockets, and only their sockets were touched. -/
structure Served (S : Set Ptr) (s s' : ServiceLoop σ) : Prop where
  touches : ETransfer.Touches S s.transfer s'.transfer
  others : ∀ p, p ∉ S → s'.mTcpMap[p]? = s.mTcpMap[p]?
  own : ∀ p up, s'.mTcpMap[p]? = some up → s.mTcpMap[p]? = some up ∨ (p ∈ S ∧ up.usock = p)

namespace Served

variable {S S' : Set Ptr} {s s' s'' : ServiceLoop σ}

/-- The records stay, and the sockets in `S` are touched. -/
lemma of_touches (ht : ETransfer.Touches S s.transfer s'.transfer)
    (hmap : s'.mTcpMap = s.mTcpMap) : Served S s s' := by
  refine ⟨ht, fun p _ => by rw [hmap], fun p up hup => ?_⟩
  rw [hmap] at hup
  exact .inl hup

protected lemma refl (S : Set Ptr) (s : ServiceLoop σ) : Served S s s :=
  of_touches (.refl S _) rfl

protected lemma trans (h : Served S s s') (h' : Served S s' s'') : Served S s s'' where
  touches := h.touches.trans h'.touches
  others p hp := (h'.others p hp).trans (h.others p hp)
  own p up hup := by
    rcases h'.own p up hup with hold | hnew
    · exact h.own p up hold
    · exact .inr hnew

lemma mono (h : Served S s s') (hS : S ⊆ S') : Served S' s s' where
  touches := h.touches.mono hS
  others p hp := h.others p fun hc => hp (hS hc)
  own p up hup := (h.own p up hup).imp_right fun hnew => ⟨hS hnew.1, hnew.2⟩

/-- The tables and the buffers do not matter. -/
lemma of_eq (h : Served S s s') (ht : s''.transfer = s'.transfer)
    (hmap : s''.mTcpMap = s'.mTcpMap) : Served S s s'' := by
  refine h.trans (of_touches ?_ hmap)
  rw [ht]
  exact .refl S _

lemma destroy (s : ServiceLoop σ) (p : Ptr) : Served {p} s (s.destroy p) := by
  refine ⟨ETransfer.touches_destroySocket _ p, fun q hq => ?_, fun q up hup => ?_⟩
  · rw [ServiceLoop.destroy, Std.TreeMap.getElem?_erase, if_neg]
    rw [Std.LawfulEqCmp.compare_eq_iff_eq]
    exact fun hc => hq hc.symm
  · rw [ServiceLoop.destroy, Std.TreeMap.getElem?_erase] at hup
    split_ifs at hup
    exact .inl hup

lemma receive (s : ServiceLoop σ) (io : Io) (p : Ptr) : Served {p} s (s.receive io p).1 :=
  of_touches (ETransfer.touches_recv _ p _ _) rfl

lemma prepareReply (s : ServiceLoop σ) (io : Io) (p : Ptr)
    (handle : Bytes → Bytes → σ → σ × Bytes) : Served {p} s (s.prepareReply io p handle) := by
  refine ⟨.refl _ _, fun q hq => ?_, fun q up hup => ?_⟩
  · rw [ServiceLoop.prepareReply, Std.TreeMap.getElem?_insert, if_neg]
    rw [Std.LawfulEqCmp.compare_eq_iff_eq]
    exact fun hc => hq hc.symm
  · rw [ServiceLoop.prepareReply, Std.TreeMap.getElem?_insert] at hup
    split_ifs at hup with heq
    · rw [Std.LawfulEqCmp.compare_eq_iff_eq] at heq
      obtain rfl := Option.some.inj hup
      exact .inr ⟨heq.symm, heq⟩
    · exact .inl hup

lemma sendReply (s : ServiceLoop σ) (io : Io) (up : Upoll) :
    Served {up.usock} s (s.sendReply io up) := by
  rw [ServiceLoop.sendReply]
  refine .trans ?_ (destroy _ up.usock)
  exact of_touches (ETransfer.touches_send _ up.usock _ _) rfl

end Served

/-- What a loop does for an event concerns the connection of the event. -/
def Serves (onSocket : Io → Upoll → ServiceLoop σ → ServiceLoop σ) : Prop :=
  ∀ io up s, Served {up.usock} s (onSocket io up s)

lemma serves_jobMonitorSocket (h : Handlers σ) : Serves (jobMonitorSocket h) := by
  intro io up s
  have hrecv := Served.receive s io up.usock
  rw [jobMonitorSocket]
  by_cases hwrite : up.has upollWriteT
  · rw [if_pos hwrite]
    exact .sendReply s io up
  rw [if_neg hwrite]
  by_cases hread : up.has upollReadT
  · rw [if_pos hread]
    simp only
    split_ifs
    · exact hrecv.trans (.destroy _ _)
    · exact hrecv.trans (.destroy _ _)
    · exact hrecv.trans (.destroy _ _)
    · exact hrecv.trans (.prepareReply _ io _ _)
    · exact hrecv
  · rw [if_neg hread]
    exact .refl _ s

lemma serves_jobQueueResultSocket (h : Handlers σ) : Serves (jobQueueResultSocket h) := by
  intro io up s
  rw [jobQueueResultSocket]
  split_ifs
  · have hreport : Served {up.usock} s
        { (s.receive io up.usock).1 with
          tables := h.jobResult (s.receive io up.usock).1.recvBuffer
            (s.receive io up.usock).1.tables } :=
      (Served.receive s io up.usock).of_eq rfl rfl
    exact hreport.trans (.destroy _ _)
  · exact .destroy s _
  · exact .destroy s _
  · exact .refl _ s

lemma serves_hostMonitorSocket (h : Handlers σ) : Serves (hostMonitorSocket h) := by
  intro io up s
  have hrecv := Served.receive s io up.usock
  rw [hostMonitorSocket]
  by_cases hread : up.has upollReadT
  · rw [if_pos hread]
    simp only
    split_ifs
    · exact hrecv.trans (.prepareReply _ io _ _)
    · exact hrecv
  · rw [if_neg hread]
    split_ifs
    · exact .sendReply s io up
    · exact .destroy s _
    · exact .refl _ s

lemma serves_epbsHostStatusSocket : Serves (σ := σ) epbsHostStatusSocket := by
  intro io up s
  rw [epbsHostStatusSocket]
  split_ifs
  · have hrecv : Served {up.usock} s
        { (s.receive io up.usock).1 with recvSize := (s.receive io up.usock).2 } :=
      (Served.receive s io up.usock).of_eq rfl rfl
    exact hrecv.trans (.destroy _ _)
  · exact .refl _ s

end ServiceLoop

end Epbs
