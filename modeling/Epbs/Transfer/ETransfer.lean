/-
The socket layer of the TCP service loops (`etransfer/eTransfer.cpp`,
`etransfer/utcp_socket.cpp`, `etransfer/usocket.h`).

* `UTcpSocket`, `Upoll`, `ETransfer`: the objects, with the sockets behind their
  addresses and the kernel's side of the listening port: the connections that wait
  on it and the descriptors that are open;
* `walkThrough`, `select`, `accept`, `destroySocket`, `recv`, `send`: the calls the
  loops make; what the kernel answers is an argument.

`std::map` is `Std.TreeMap`: its entries come in the order of the keys.  Descriptors
are taken to fit an `fd_set`.
-/
import Mathlib.Tactic
import Epbs.Server.Tables

namespace Epbs

/-! ### Sockets -/

/-- The address of an object. -/
abbrev Ptr := ℕ

/-- `SOCK_STATUS`. -/
inductive SockStatus where
  | connecting | accepted | connected | closed | error
  deriving DecidableEq, Repr

/-- `UTcpSocket` and its base `USocket`, without the remote address, which no code
reads. -/
structure UTcpSocket where
  mSock : ℤ
  mStatus : SockStatus
  mReason : ℤ
  mBneedreadselect : Bool
  mBneedwriteselect : Bool
  deriving DecidableEq

namespace UTcpSocket

/-- The constructor.  It leaves `m_reason` as the memory was. -/
def new (mReason : ℤ) : UTcpSocket where
  mSock := -1
  mStatus := .closed
  mReason := mReason
  mBneedreadselect := false
  mBneedwriteselect := false

/-- `bind`. -/
def bind (s : UTcpSocket) (sock : ℤ) : UTcpSocket := { s with mSock := sock }

/-- `is_error`. -/
def isError (s : UTcpSocket) : Bool := s.mStatus == .error

end UTcpSocket

/-- `UPOLL_READ_T`. -/
def upollReadT : BitVec 16 := 1

/-- `UPOLL_WRITE_T`. -/
def upollWriteT : BitVec 16 := 2

/-- `UPOLL_ERROR_T`. -/
def upollErrorT : BitVec 16 := 4

/-- `upoll_t`: a socket, events of it, and a buffer. -/
structure Upoll where
  usock : Ptr
  events : BitVec 16
  pointer : Option Ptr
  deriving DecidableEq

/-- `up.events & flag`. -/
def Upoll.has (up : Upoll) (flag : BitVec 16) : Bool := up.events &&& flag != 0

namespace Upoll

variable {up : Upoll}

/-- The flags of a record or an event of one kind. -/
lemma has_of_read (h : up.events = upollReadT) :
    up.has upollReadT = true ∧ up.has upollWriteT = false ∧ up.has upollErrorT = false := by
  rw [has, has, has, h]
  decide

lemma has_of_write (h : up.events = upollWriteT) :
    up.has upollReadT = false ∧ up.has upollWriteT = true := by
  rw [has, has, h]
  decide

lemma has_of_error (h : up.events = upollErrorT) :
    up.has upollReadT = false ∧ up.has upollWriteT = false ∧ up.has upollErrorT = true := by
  rw [has, has, has, h]
  decide

end Upoll

/-- `EAGAIN`, which is also `EWOULDBLOCK`. -/
def eagain : ℤ := 11

/-! ### What the kernel answers -/

/-- The three sets of descriptors that `::select` is given and gives back. -/
structure FdSets where
  rset : List ℤ
  wset : List ℤ
  eset : List ℤ

/-- The descriptors that are ready for reading, for writing, and in error. -/
structure Ready where
  rset : ℤ → Bool
  wset : ℤ → Bool
  eset : ℤ → Bool

/-- The answers during one call of `walk_through`: of `::select`, where `none` is a
result of 0 or less, of `::accept`, and of the allocation of a socket object, with
what its memory held. -/
structure WalkIo where
  ready : Option Ready
  accept : Option ℕ
  addr : Ptr
  reason : ℤ

/-- `::select`, which looks at the descriptors below `nfds`. -/
def WalkIo.select (io : WalkIo) (nfds : ℤ) (sets : FdSets) : Option FdSets :=
  io.ready.map fun r =>
    { rset := sets.rset.filter fun fd => fd < nfds && r.rset fd
      wset := sets.wset.filter fun fd => fd < nfds && r.wset fd
      eset := sets.eset.filter fun fd => fd < nfds && r.eset fd }

/-- The answers of the kernel while the sockets of a list are polled once. -/
structure Poll where
  canRead : ℤ → Bool
  canWrite : ℤ → Bool

/-- The answer of `::recv`: bytes, none of them when the peer has closed, or an error. -/
inductive RecvAnswer where
  | data (bytes : Bytes)
  | error (errno : ℤ)

/-- The answer of `::send`: how many bytes it took, or an error. -/
inductive SendAnswer where
  | sent (n : ℕ)
  | error (errno : ℤ)

/-! ### `eTransfer` -/

/-- `eTransfer`: its listening descriptor, the listener object, the sockets of the
accepted connections by descriptor, those not yet handed out, and those to destroy.
Then the socket objects, and the kernel's side: the connections that wait on the
port, numbered in the order they came, the connection of each open descriptor, and
the bytes sent on it. -/
structure ETransfer where
  mTcpSock : ℤ
  mTcpListener : Ptr
  mTcpMap : Std.TreeMap ℤ Ptr
  mTcpAcceptList : List Ptr
  mDestroyList : List Ptr
  sockets : Ptr → Option UTcpSocket
  backlog : List ℕ
  conn : ℤ → Option ℕ
  arrived : ℕ
  sent : ℤ → Bytes

namespace ETransfer

/-- The socket at an address. -/
def sock (t : ETransfer) (p : Ptr) : UTcpSocket := (t.sockets p).getD (.new 0)

/-- A socket is updated through its address. -/
def setSock (t : ETransfer) (p : Ptr) (f : UTcpSocket → UTcpSocket) : ETransfer :=
  { t with sockets := Function.update t.sockets p ((t.sockets p).map f) }

/-- The connection of a socket. -/
def connOf (t : ETransfer) (p : Ptr) : Option ℕ := (t.sockets p).bind fun s => t.conn s.mSock

/-- The sockets of `m_tcp_map`, in its order. -/
def tcpSockets (t : ETransfer) : List Ptr := t.mTcpMap.toList.map (·.2)

/-- A client connects to the port. -/
def arrive (t : ETransfer) : ETransfer :=
  { t with backlog := t.backlog ++ [t.arrived], arrived := t.arrived + 1 }

/-- `set_conn_set`: the descriptors to watch, and the largest of them. -/
def setConnSet (t : ETransfer) : FdSets × ℤ :=
  let socks := t.tcpSockets.map t.sock
  ({ rset := (if 0 ≤ t.mTcpSock then [t.mTcpSock] else []) ++
        (socks.filter (·.mBneedreadselect)).map (·.mSock)
     wset := (socks.filter (·.mBneedwriteselect)).map (·.mSock)
     eset := (socks.filter fun s => s.mBneedreadselect || s.mBneedwriteselect).map (·.mSock) },
    (socks.map (·.mSock)).foldl max t.mTcpSock)

/-- The connection `c`, accepted as `newSock`, gets a socket. -/
def newSocket (t : ETransfer) (io : WalkIo) (newSock : ℤ) (c : ℕ) (rest : List ℕ) : ETransfer :=
  { t with
    sockets := Function.update t.sockets io.addr
      (some ((UTcpSocket.new io.reason).bind newSock))
    mTcpMap := t.mTcpMap.insert newSock io.addr
    mTcpAcceptList := t.mTcpAcceptList ++ [io.addr]
    backlog := rest
    conn := Function.update t.conn newSock (some c) }

/-- `proc_tcp_listen_sock`: the first connection that waits is accepted. -/
def procTcpListenSock (t : ETransfer) (io : WalkIo) : ETransfer :=
  match t.backlog, io.accept with
  | c :: rest, some newSock => t.newSocket io newSock c rest
  | _, _ => t

/-- The body of `proc_tcp_socket`. -/
def procSocket (sets : FdSets) (s : UTcpSocket) : UTcpSocket :=
  if s.mSock ∈ sets.eset then
    { s with mStatus := .error, mBneedreadselect := false, mBneedwriteselect := false }
  else
    { s with
      mBneedwriteselect := if s.mSock ∈ sets.wset then false else s.mBneedwriteselect
      mBneedreadselect := if s.mSock ∈ sets.rset then false else s.mBneedreadselect
      mStatus := if s.mStatus = .connecting ∧ s.mSock ∈ sets.wset then .connected
        else s.mStatus }

/-- `proc_tcp_socket`. -/
def procTcpSocket (t : ETransfer) (sets : FdSets) : ETransfer :=
  t.tcpSockets.foldl (fun t p => t.setSock p (procSocket sets)) t

/-- `proc_rw_set`. -/
def procRwSet (t : ETransfer) (io : WalkIo) (sets : FdSets) : ETransfer :=
  let t := if 0 ≤ t.mTcpSock ∧ t.mTcpSock ∈ sets.rset then t.procTcpListenSock io else t
  t.procTcpSocket sets

/-- `walk_through`. -/
def walkThrough (t : ETransfer) (io : WalkIo) : ETransfer :=
  if t.mTcpSock < 0 then t
  else
    match io.select (t.setConnSet.2 + 1) t.setConnSet.1 with
    | some sets => t.procRwSet io sets
    | none => t

/-- `can_read` of a socket. -/
def canRead (t : ETransfer) (poll : Poll) (p : Ptr) : Bool :=
  0 ≤ (t.sock p).mSock && poll.canRead (t.sock p).mSock

/-- `can_write` of a socket. -/
def canWrite (t : ETransfer) (poll : Poll) (p : Ptr) : Bool :=
  0 ≤ (t.sock p).mSock && poll.canWrite (t.sock p).mSock

/-- The body of `has_available_sockets`: what is found for one entry. -/
def available (t : ETransfer) (poll : Poll) (it : Upoll) : List Upoll :=
  if (t.sock it.usock).isError then [{ it with events := upollErrorT }]
  else
    (if it.has upollWriteT && t.canWrite poll it.usock then
      [{ it with events := upollWriteT }] else []) ++
    (if it.has upollReadT &&
        (if it.usock = t.mTcpListener then !t.mTcpAcceptList.isEmpty
          else t.canRead poll it.usock) then
      [{ it with events := upollReadT }] else [])

/-- `has_available_sockets`: what is found is added to `dst` and counted. -/
def hasAvailableSockets (t : ETransfer) (poll : Poll) (dst src : List Upoll) :
    List Upoll × ℕ :=
  (dst ++ src.flatMap (t.available poll), (src.flatMap (t.available poll)).length)

/-- The first loop of `select`: the events asked for are noted in the sockets. -/
def setNeeds (t : ETransfer) (src : List Upoll) : ETransfer :=
  src.foldl (fun t it => t.setSock it.usock fun s =>
    { s with
      mBneedreadselect := it.has upollReadT
      mBneedwriteselect := it.has upollWriteT }) t

/-- The second loop of `select`, entered with `wait_ret` at its `k`-th poll. -/
def pollLoop (t : ETransfer) (polls : ℕ → Poll) (src : List Upoll) :
    ℕ → ℕ → List Upoll → List Upoll × ℕ
  | 0, k, dst => t.hasAvailableSockets (polls k) dst src
  | waitRet + 1, k, dst =>
      let found := t.hasAvailableSockets (polls k) dst src
      if found.2 = 0 then t.pollLoop polls src waitRet (k + 1) found.1 else found

/-- `select`: the transfer, `dst` and the result. -/
def select (t : ETransfer) (polls : ℕ → Poll) (src : List Upoll) :
    ETransfer × List Upoll × ℕ :=
  let found := t.hasAvailableSockets (polls 0) [] src
  if 0 < found.2 then (t, found.1, 1)
  else
    let t := t.setNeeds src
    (t, t.pollLoop polls src 1 1 found.1)

/-- `accept`: the first socket not yet handed out, for the listener or for `NULL`. -/
def accept (t : ETransfer) (usocket : Option Ptr) : ETransfer × Option Ptr :=
  if usocket = some t.mTcpListener ∨ usocket = none then
    match t.mTcpAcceptList with
    | [] => (t, none)
    | p :: rest =>
        let t := t.setSock p fun s => { s with mStatus := .connected }
        ({ t with mTcpAcceptList := rest }, some p)
  else (t, none)

/-- `destroy_socket`. -/
def destroySocket (t : ETransfer) (p : Ptr) : ETransfer :=
  let t := t.setSock p fun s => { s with mStatus := .closed }
  { t with mDestroyList := t.mDestroyList ++ [p] }

/-- An error of `::recv` or `::send` is noted in the socket. -/
def noteError (t : ETransfer) (p : Ptr) (errno : ℤ) : ETransfer :=
  t.setSock p fun s =>
    { s with
      mReason := errno
      mStatus := if errno ≠ eagain then .error else s.mStatus }

/-- `UTcpSocket::recv`: the transfer, the bytes received and the result. -/
def recv (t : ETransfer) (p : Ptr) (len : ℕ) (answer : RecvAnswer) : ETransfer × Bytes × ℤ :=
  if (t.sock p).isError then (t, [], -1)
  else
    match answer with
    | .error errno => (t.noteError p errno, [], -1)
    | .data bytes =>
        if bytes.take len = [] then
          (t.setSock p fun s => { s with mStatus := .closed }, [], 0)
        else (t, bytes.take len, (bytes.take len).length)

/-- `UTcpSocket::send`: the transfer and the result. -/
def send (t : ETransfer) (p : Ptr) (buf : Bytes) (answer : SendAnswer) : ETransfer × ℤ :=
  if (t.sock p).isError then (t, -1)
  else
    match answer with
    | .error errno => (t.noteError p errno, -1)
    | .sent n =>
        let fd := (t.sock p).mSock
        ({ t with sent := Function.update t.sent fd (t.sent fd ++ buf.take n) },
          (buf.take n).length)

end ETransfer

end Epbs
