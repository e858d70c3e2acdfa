/-
A request that arrives in segments (`job_monitor_etransfer`).

* `requestsAt`: the buffers that an event of a connection hands to the request handler;
* `Watched`: the loop, with what it reads from one of its connections and which requests
  it handles for it, whatever else it serves in between;
* `Waiting`, `Answered`: the two phases of a connection: no byte of it was read, or one
  buffer was handed to the handler; `Watched.Inv` holds along every run;
* `segments_harmless_iff`: the request that is handled is the one that was sent, over all
  runs and all bytes left in the receive buffer, exactly when the first segment holds the
  bytes that are read.
-/
import Epbs.Transfer.Intake
import Epbs.Wire.Requests

namespace Epbs

namespace ServiceLoop

variable {σ τ : Type*}

/-! ### What is handed to the handler -/

/-- The loop with other tables. -/
def withTables (s : ServiceLoop σ) (tables : τ) : ServiceLoop τ where
  transfer := s.transfer
  mTcpMap := s.mTcpMap
  recvSize := s.recvSize
  recvBuffer := s.recvBuffer
  buffers := s.buffers
  tables := tables

/-- Handlers that only keep the requests they are given. -/
def keepRequests : Handlers (List Bytes) where
  jobMonitor := fun buf fresh requests => (requests ++ [buf], fresh)
  jobResult := fun _ requests => requests
  hostMonitor := fun _ fresh requests => (requests, fresh)
  hostStatus := fun _ requests => requests

/-- **The requests of an event**: the buffers that `job_monitor_etransfer` hands to its
request handler there. -/
def requestsAt (io : Io) (up : Upoll) (s : ServiceLoop σ) : List Bytes :=
  (jobMonitorSocket keepRequests io up (s.withTables [])).tables

/-- What becomes of the connection of an event. -/
inductive Outcome where
  | sent | failed | answered | pending | untouched

/-- The branch that `job_monitor_etransfer` takes for an event. -/
def outcome (io : Io) (up : Upoll) (s : ServiceLoop σ) : Outcome :=
  let (s, recvSize) := s.receive io up.usock
  if up.has upollWriteT then .sent
  else if up.has upollReadT then
    if msgBuffSize < recvSize ∨
        (recvSize < 0 ∧ (s.transfer.sock up.usock).mReason ≠ eagain) ∨ up.has upollErrorT then
      .failed
    else if 0 < recvSize then .answered
    else .pending
  else .untouched

/-- **An event** in each of the branches. -/
lemma jobMonitorSocket_eq (h : Handlers σ) (io : Io) (up : Upoll) (s : ServiceLoop σ) :
    jobMonitorSocket h io up s =
      match s.outcome io up with
      | .sent => s.sendReply io up
      | .failed => (s.receive io up.usock).1.destroy up.usock
      | .answered => (s.receive io up.usock).1.prepareReply io up.usock h.jobMonitor
      | .pending => (s.receive io up.usock).1
      | .untouched => s := by
  simp only [jobMonitorSocket, outcome]
  by_cases hwrite : up.has upollWriteT
  · rw [if_pos hwrite, if_pos hwrite]
  rw [if_neg hwrite, if_neg hwrite]
  by_cases hread : up.has upollReadT
  · rw [if_pos hread, if_pos hread]
    split_ifs with hsize herror hflag hdata <;> grind
  · rw [if_neg hread, if_neg hread]

/-- The requests of an event: the receive buffer if the connection is answered. -/
lemma requestsAt_eq (io : Io) (up : Upoll) (s : ServiceLoop σ) :
    s.requestsAt io up =
      match s.outcome io up with
      | .answered => [(s.receive io up.usock).1.recvBuffer]
      | _ => [] := by
  have hsame : (s.withTables ([] : List Bytes)).outcome io up = s.outcome io up := rfl
  rw [requestsAt, jobMonitorSocket_eq, hsame]
  cases s.outcome io up <;> rfl

/-- **What an event does to the tables** is what the handler does for its requests. -/
theorem tables_jobMonitorSocket (h : Handlers σ) (io : Io) (up : Upoll) (s : ServiceLoop σ) :
    (jobMonitorSocket h io up s).tables =
      (s.requestsAt io up).foldl
        (fun tables buf => (h.jobMonitor buf (io.malloc up.usock).2 tables).1) s.tables := by
  rw [jobMonitorSocket_eq, requestsAt_eq]
  cases s.outcome io up <;> rfl

/-- The answers of `::recv` that an event takes. -/
def readsAt (io : Io) (up : Upoll) (s : ServiceLoop σ) : List RecvAnswer :=
  if up.has upollWriteT then []
  else if up.has upollReadT then [io.recv (s.transfer.sock up.usock).mSock] else []

end ServiceLoop

/-! ### One connection among others -/

/-- The loop `job_monitor_etransfer`, and for one of its connections the answers of
`::recv` and the requests handled. -/
structure Watched (σ : Type*) where
  loop : ServiceLoop σ
  reads : List RecvAnswer
  requests : List Bytes

namespace Watched

variable {σ : Type*}

/-- The body of the loop over `dst`, with the reads and the requests of the socket `p`. -/
def onEvent (p : Ptr) (h : Handlers σ) (io : Io) (w : Watched σ) (up : Upoll) : Watched σ where
  loop := ServiceLoop.onEvent (ServiceLoop.jobMonitorSocket h) io w.loop up
  reads := w.reads ++ if up.usock = p then w.loop.readsAt io up else []
  requests := w.requests ++ if up.usock = p then w.loop.requestsAt io up else []

@[simp] lemma onEvent_reads (p : Ptr) (h : Handlers σ) (io : Io) (w : Watched σ) (up : Upoll) :
    (w.onEvent p h io up).reads =
      w.reads ++ if up.usock = p then w.loop.readsAt io up else [] := rfl

@[simp] lemma onEvent_requests (p : Ptr) (h : Handlers σ) (io : Io) (w : Watched σ) (up : Upoll) :
    (w.onEvent p h io up).requests =
      w.requests ++ if up.usock = p then w.loop.requestsAt io up else [] := rfl

/-- An iteration of `job_monitor_etransfer`, with the reads and the requests of `p`. -/
def iterate (p : Ptr) (h : Handlers σ) (io : Io) (w : Watched σ) : Watched σ :=
  let (t, dst, res) := w.loop.transfer.select io.polls w.loop.src
  let w := { w with loop := { w.loop with transfer := t } }
  if 0 < res then dst.foldl (onEvent p h io) w else w

lemma loop_foldl (p : Ptr) (h : Handlers σ) (io : Io) (dst : List Upoll) (w : Watched σ) :
    (dst.foldl (onEvent p h io) w).loop =
      dst.foldl (ServiceLoop.onEvent (ServiceLoop.jobMonitorSocket h) io) w.loop := by
  induction dst generalizing w with
  | nil => rfl
  | cons up dst ih => exact ih (w.onEvent p h io up)

/-- Watching a connection does not change the loop. -/
lemma loop_iterate (p : Ptr) (h : Handlers σ) (io : Io) (w : Watched σ) :
    (w.iterate p h io).loop = ServiceLoop.jobMonitorEtransfer h io w.loop := by
  simp only [iterate, ServiceLoop.jobMonitorEtransfer, ServiceLoop.iterate, Bool.false_eq_true,
    if_false]
  split_ifs
  · exact loop_foldl p h io _ _
  · rfl

/-! ### The events of a connection -/

/-- The event of a connection that is read. -/
def readEvent (p : Ptr) : Upoll where
  usock := p
  events := upollReadT
  pointer := none

/-- What an event of a connection that is read can carry. -/
lemma has_readEvent (p : Ptr) : (readEvent p).has upollReadT = true ∧
    (readEvent p).has upollWriteT = false ∧ (readEvent p).has upollErrorT = false :=
  Upoll.has_of_read rfl

end Watched

namespace ServiceLoop

variable {σ : Type*}

/-- Of entries under different keys, one has the events of its socket. -/
lemma filter_flatMap_entries {entries : List (Ptr × Upoll)} {f : Upoll → List Upoll} {p : Ptr}
    {it : Upoll} (hkeys : entries.Pairwise fun a b => a.1 ≠ b.1) (hit : (p, it) ∈ entries)
    (hf : ∀ e ∈ entries, ∀ up ∈ f e.2, up.usock = e.1) :
    ((entries.map (·.2)).flatMap f).filter (·.usock = p) = f it := by
  have hnone : ∀ {rest : List (Ptr × Upoll)}, (∀ e ∈ rest, e.1 ≠ p) →
      (∀ e ∈ rest, ∀ up ∈ f e.2, up.usock = e.1) →
      ((rest.map (·.2)).flatMap f).filter (·.usock = p) = [] := by
    intro rest hrest hf
    refine List.filter_eq_nil_iff.mpr fun up hup hp => ?_
    obtain ⟨it', hit', hup⟩ := List.mem_flatMap.mp hup
    obtain ⟨e, he, rfl⟩ := List.mem_map.mp hit'
    exact hrest e he ((hf e he up hup).symm.trans (of_decide_eq_true hp))
  induction entries with
  | nil => cases hit
  | cons e entries ih =>
      obtain ⟨hhead, htail⟩ := List.pairwise_cons.mp hkeys
      have hf' := fun e' he' => hf e' (List.mem_cons_of_mem e he')
      rw [List.map_cons, List.flatMap_cons, List.filter_append]
      rcases List.mem_cons.mp hit with rfl | hmem
      · rw [hnone (fun e' he' => (hhead e' he').symm) hf', List.append_nil]
        exact List.filter_eq_self.mpr fun up hup =>
          decide_eq_true (hf (p, it) List.mem_cons_self up hup)
      · rw [ih htail hmem hf', List.filter_eq_nil_iff.mpr, List.nil_append]
        intro up hup hp
        exact hhead _ hmem ((hf e List.mem_cons_self up hup).symm.trans (of_decide_eq_true hp))

/-- The events of one registered connection in an iteration. -/
lemma filter_connEvents {s : ServiceLoop σ} (hs : s.Sound) (walks : Bool) (io : Io) (k : ℕ)
    {p : Ptr} {it : Upoll} (hit : s.mTcpMap[p]? = some it) :
    (s.connEvents walks io k).filter (·.usock = p) =
      (s.walked walks io).available (io.polls k) it := by
  refine filter_flatMap_entries ?_ (Std.TreeMap.mem_toList_iff_getElem?_eq_some.mpr hit) ?_
  · refine Std.TreeMap.distinct_keys_toList.imp fun hne heq => hne ?_
    exact Std.LawfulEqCmp.compare_eq_iff_eq.mpr heq
  · intro e he up hup
    have hreg := hs.registered e.1 e.2 (Std.TreeMap.mem_toList_iff_getElem?_eq_some.mp he)
    exact (usock_of_mem_available hup).trans hreg.1

/-- What a poll finds for a record of a sound socket that asks for reading. -/
lemma available_read {t : ETransfer} {poll : Poll} {p : Ptr} (herr : (t.sock p).isError = false)
    (hp : p ≠ t.mTcpListener) :
    t.available poll (Watched.readEvent p) = [] ∨
      t.available poll (Watched.readEvent p) = [Watched.readEvent p] := by
  obtain ⟨hread, hwrite, -⟩ := Watched.has_readEvent p
  rw [ETransfer.available, if_neg (by rw [show (Watched.readEvent p).usock = p from rfl, herr]
                                      exact Bool.false_ne_true)]
  simp only [hread, hwrite, Bool.false_and, Bool.true_and, Bool.false_eq_true, if_false,
    List.nil_append, show (Watched.readEvent p).usock = p from rfl, if_neg hp]
  split_ifs
  · exact .inr rfl
  · exact .inl rfl

/-- What a poll finds for a record that asks for writing is not a read. -/
lemma available_write {t : ETransfer} {poll : Poll} {it up : Upoll}
    (hit : it.events = upollWriteT) (hup : up ∈ t.available poll it) :
    up.has upollReadT = false := by
  simp only [ETransfer.available, (Upoll.has_of_write hit).1, Bool.false_and,
    Bool.false_eq_true, if_false, List.append_nil] at hup
  split_ifs at hup
  · rw [List.mem_singleton.mp hup]
    exact (Upoll.has_of_error rfl).1
  · rw [List.mem_singleton.mp hup]
    exact (Upoll.has_of_write rfl).1
  · cases hup

end ServiceLoop

/-! ### The two phases -/

/-- The bytes of an answer of `::recv`. -/
def RecvAnswer.bytes : RecvAnswer → Option Bytes
  | .data bytes => some bytes
  | .error _ => none

namespace Watched

variable {σ : Type*} {p : Ptr} {w : Watched σ}

/-- No byte of the connection was read, and nothing was handed to the handler for it: its record
still waits for a request. -/
structure Waiting (p : Ptr) (w : Watched σ) : Prop where
  record : w.loop.mTcpMap[p]? = some (readEvent p)
  sound : (w.loop.transfer.sock p).isError = false
  reads : w.reads.filterMap RecvAnswer.bytes = []
  requests : w.requests = []

/-- One buffer was handed to the handler: the first bytes that were read, over what was
in the receive buffer. -/
structure Answered (p : Ptr) (w : Watched σ) : Prop where
  record : ∀ up, w.loop.mTcpMap[p]? = some up → up.events = upollWriteT
  handled : ∃ c stale : Bytes, w.reads.filterMap RecvAnswer.bytes = [c] ∧
    w.requests = [c.take msgBuffSize ++ stale.drop (c.take msgBuffSize).length]

/-- The answers of `::recv` are bytes, or there are none yet. -/
def Reads (reads : List RecvAnswer) : Prop :=
  ∀ a ∈ reads, a = .error eagain ∨ ∃ c, c ≠ [] ∧ a = .data c

/-- An event of another connection changes neither phase. -/
lemma onEvent_of_ne {h : Handlers σ} {io : Io} {up : Upoll} (hup : up.usock ≠ p)
    (hconn : up.usock ≠ w.loop.transfer.mTcpListener) :
    (Waiting p w → Waiting p (w.onEvent p h io up)) ∧
      (Answered p w → Answered p (w.onEvent p h io up)) := by
  have hserved : ServiceLoop.Served {up.usock} w.loop (w.onEvent p h io up).loop := by
    rw [onEvent, ServiceLoop.onEvent, if_neg hconn]
    exact ServiceLoop.serves_jobMonitorSocket h io up w.loop
  have hp : p ∉ ({up.usock} : Set Ptr) := fun hc => hup hc.symm
  have hreads : (w.onEvent p h io up).reads = w.reads := by
    rw [onEvent_reads, if_neg hup, List.append_nil]
  have hrequests : (w.onEvent p h io up).requests = w.requests := by
    rw [onEvent_requests, if_neg hup, List.append_nil]
  have hrecord := hserved.others p hp
  refine ⟨fun hw => ⟨hrecord.trans hw.record, ?_, ?_, ?_⟩, fun hw => ⟨fun up' hup' => ?_, ?_⟩⟩
  · rw [UTcpSocket.isError, hserved.touches.sock_mStatus hp]
    exact hw.sound
  · rw [hreads, hw.reads]
  · rw [hrequests, hw.requests]
  · exact hw.record up' (hrecord.symm.trans hup')
  · rw [hreads, hrequests]
    exact hw.handled

/-- A read event of `p` is handled by the loop's body for connections. -/
lemma onEvent_readEvent (hp : p ≠ w.loop.transfer.mTcpListener) (h : Handlers σ) (io : Io) :
    w.onEvent p h io (readEvent p) =
      { loop := ServiceLoop.jobMonitorSocket h io (readEvent p) w.loop
        reads := w.reads ++ [io.recv (w.loop.transfer.sock p).mSock]
        requests := w.requests ++ w.loop.requestsAt io (readEvent p) } := by
  obtain ⟨hread, hwrite, -⟩ := has_readEvent p
  have husock : (readEvent p).usock = p := rfl
  rw [onEvent, ServiceLoop.onEvent, husock, if_neg hp, if_pos rfl, if_pos rfl,
    ServiceLoop.readsAt, hread, hwrite, husock]
  simp only [Bool.false_eq_true, if_false, if_true]

/-- **Bytes are read**: the connection is answered, and the handler was given the bytes
over what was in the buffer. -/
lemma Waiting.read_data (hw : Waiting p w) (hp : p ≠ w.loop.transfer.mTcpListener)
    (h : Handlers σ) {io : Io} {c : Bytes} (hc : c ≠ [])
    (hrecv : io.recv (w.loop.transfer.sock p).mSock = .data c) :
    Answered p (w.onEvent p h io (readEvent p)) ∧
      (w.onEvent p h io (readEvent p)).requests =
        [c.take msgBuffSize ++ w.loop.recvBuffer.drop (c.take msgBuffSize).length] := by
  obtain ⟨hread, hwrite, herror⟩ := has_readEvent p
  have husock : (readEvent p).usock = p := rfl
  have hne : c.take msgBuffSize ≠ [] := by
    rw [Ne, List.take_eq_nil_iff]
    exact fun hor => hor.elim (by decide) hc
  have hreceive := ServiceLoop.receive_data hw.sound hrecv hne
  have hle := ServiceLoop.length_received c
  obtain ⟨bytes, hbytes⟩ : ∃ bytes, c.take msgBuffSize = bytes := ⟨_, rfl⟩
  rw [hbytes] at hne hreceive hle
  have hpos : 0 < (bytes.length : ℤ) := by
    have := List.length_pos_iff.mpr hne
    omega
  have houtcome : w.loop.outcome io (readEvent p) = .answered := by
    simp only [ServiceLoop.outcome, husock, hreceive, hread, hwrite, herror, hle,
      not_lt.mpr hpos.le, hpos, Bool.false_eq_true, if_false, if_true, false_and, false_or]
  have hrequests : w.loop.requestsAt io (readEvent p) =
      [bytes ++ w.loop.recvBuffer.drop bytes.length] := by
    rw [ServiceLoop.requestsAt_eq, houtcome]
    simp only [husock, hreceive]
  rw [onEvent_readEvent hp, hrequests, hw.requests, hrecv, hbytes]
  refine ⟨⟨fun up hup => ?_, c, w.loop.recvBuffer, ?_, by rw [hbytes]; rfl⟩, rfl⟩
  · simp only [ServiceLoop.jobMonitorSocket_eq, houtcome, ServiceLoop.prepareReply, husock] at hup
    rw [Std.TreeMap.getElem?_insert_self] at hup
    obtain rfl := Option.some.inj hup
    rfl
  · rw [List.filterMap_append, hw.reads]
    rfl

/-- Nothing is there to read yet: the connection waits on. -/
lemma Waiting.read_eagain (hw : Waiting p w) (hp : p ≠ w.loop.transfer.mTcpListener)
    (hsome : (w.loop.transfer.sockets p).isSome) (h : Handlers σ) {io : Io}
    (hrecv : io.recv (w.loop.transfer.sock p).mSock = .error eagain) :
    Waiting p (w.onEvent p h io (readEvent p)) := by
  obtain ⟨hread, hwrite, herror⟩ := has_readEvent p
  have husock : (readEvent p).usock = p := rfl
  have hreceive := ServiceLoop.receive_error hw.sound hrecv
  have hsock : (w.loop.transfer.noteError p eagain).sock p =
      { w.loop.transfer.sock p with mReason := eagain } := by
    rw [ETransfer.sock_noteError hsome, if_neg fun hne => hne rfl]
  have houtcome : w.loop.outcome io (readEvent p) = .pending := by
    simp only [ServiceLoop.outcome, husock, hreceive, hsock, hread, hwrite, herror]
    simp [msgBuffSize]
  have hrequests : w.loop.requestsAt io (readEvent p) = [] := by
    rw [ServiceLoop.requestsAt_eq, houtcome]
  rw [onEvent_readEvent hp, hrequests, hw.requests, hrecv, ServiceLoop.jobMonitorSocket_eq,
    houtcome]
  simp only [husock, hreceive]
  refine ⟨hw.record, ?_, ?_, rfl⟩
  · rw [UTcpSocket.isError, hsock]
    exact hw.sound
  · rw [List.filterMap_append, hw.reads]
    rfl

/-- A connection that was answered is not read again. -/
lemma Answered.onEvent (hw : Answered p w) (hp : p ≠ w.loop.transfer.mTcpListener)
    (h : Handlers σ) (io : Io) {up : Upoll} (husock : up.usock = p)
    (hread : up.has upollReadT = false) : Answered p (w.onEvent p h io up) := by
  have hreads : w.loop.readsAt io up = [] := by
    rw [ServiceLoop.readsAt, hread]
    simp only [Bool.false_eq_true, if_false, ite_self]
  have houtcome : w.loop.outcome io up = .sent ∨ w.loop.outcome io up = .untouched := by
    simp only [ServiceLoop.outcome, hread, Bool.false_eq_true, if_false]
    split_ifs
    · exact .inl rfl
    · exact .inr rfl
  have hrequests : w.loop.requestsAt io up = [] := by
    rw [ServiceLoop.requestsAt_eq]
    rcases houtcome with heq | heq <;> rw [heq]
  refine ⟨fun up' hup' => ?_, ?_⟩
  · rw [Watched.onEvent, ServiceLoop.onEvent, husock, if_neg hp,
      ServiceLoop.jobMonitorSocket_eq] at hup'
    rcases houtcome with heq | heq <;> simp only [heq] at hup'
    · -- the reply was sent, and the record is gone
      rw [ServiceLoop.sendReply, ServiceLoop.destroy, husock,
        Std.TreeMap.getElem?_erase_self] at hup'
      cases hup'
    · exact hw.record up' hup'
  · rw [onEvent_reads, onEvent_requests, hreads, hrequests, ite_self, List.append_nil, ite_self,
      List.append_nil]
    exact hw.handled

/-! ### An iteration -/

/-- The two phases of a connection. -/
def Phase (p : Ptr) (w : Watched σ) : Prop := Waiting p w ∨ Answered p w

/-- The reads of an event are kept. -/
lemma reads_foldl (p : Ptr) (h : Handlers σ) (io : Io) (dst : List Upoll) (w : Watched σ) :
    ∃ more, (dst.foldl (Watched.onEvent p h io) w).reads = w.reads ++ more := by
  induction dst generalizing w with
  | nil => exact ⟨[], (List.append_nil _).symm⟩
  | cons up dst ih =>
      obtain ⟨more, hmore⟩ := ih (w.onEvent p h io up)
      rw [onEvent_reads, List.append_assoc] at hmore
      exact ⟨_, hmore⟩

/-- **Events of connections**, of which a connection that waits has at most one, take it
from phase to phase. A connection that was answered has no read event any more: it waits for
the reply to be sent. -/
lemma phase_foldl {h : Handlers σ} {io : Io} {dst : List Upoll} {w : Watched σ}
    (hsome : (w.loop.transfer.sockets p).isSome) (hp : p ≠ w.loop.transfer.mTcpListener)
    (hdst : ∀ up ∈ dst, up.usock ≠ w.loop.transfer.mTcpListener)
    (hw : (Waiting p w ∧
        (dst.filter (·.usock = p) = [] ∨ dst.filter (·.usock = p) = [readEvent p])) ∨
      (Answered p w ∧ ∀ up ∈ dst, up.usock = p → up.has upollReadT = false))
    (hreads : Reads (dst.foldl (Watched.onEvent p h io) w).reads) :
    Phase p (dst.foldl (Watched.onEvent p h io) w) := by
  induction dst generalizing w with
  | nil => exact hw.imp (·.1) (·.1)
  | cons up dst ih =>
      have hne := hdst up List.mem_cons_self
      have hserved : ServiceLoop.Served {up.usock} w.loop (w.onEvent p h io up).loop := by
        rw [onEvent, ServiceLoop.onEvent, if_neg hne]
        exact ServiceLoop.serves_jobMonitorSocket h io up w.loop
      have hlistener := hserved.touches.mTcpListener
      rw [List.foldl_cons] at hreads ⊢
      refine ih ((hserved.touches.isSome p).trans hsome) (by rwa [hlistener])
        (fun up' hup' => ?_) ?_ hreads
      · rw [hlistener]
        exact hdst up' (List.mem_cons_of_mem up hup')
      rcases hw with ⟨hwait, hevents⟩ | ⟨hanswered, hevents⟩
      · by_cases hup : up.usock = p
        · -- the event of the connection: no other follows
          rw [List.filter_cons_of_pos (by simpa using hup)] at hevents
          have hone : up = readEvent p ∧ dst.filter (·.usock = p) = [] := by
            rcases hevents with hnil | hone
            · cases hnil
            · exact List.cons.inj hone
          obtain ⟨rfl, hrest⟩ := hone
          have hread := hreads (io.recv (w.loop.transfer.sock p).mSock) <| by
            obtain ⟨more, hmore⟩ := reads_foldl p h io dst (w.onEvent p h io (readEvent p))
            rw [hmore, onEvent_readEvent hp]
            simp
          rcases hread with heagain | ⟨c, hc, hdata⟩
          · exact .inl ⟨hwait.read_eagain hp hsome h heagain, .inl hrest⟩
          · refine .inr ⟨(hwait.read_data hp h hc hdata).1, fun up' hup' husock => ?_⟩
            exact absurd (decide_eq_true husock)
              (List.filter_eq_nil_iff.mp hrest up' hup')
        · rw [List.filter_cons_of_neg (by simpa using hup)] at hevents
          exact .inl ⟨(onEvent_of_ne hup hne).1 hwait, hevents⟩
      · refine .inr ⟨?_, fun up' hup' => hevents up' (List.mem_cons_of_mem up hup')⟩
        by_cases hup : up.usock = p
        · exact hanswered.onEvent hp h io hup (hevents up List.mem_cons_self hup)
        · exact (onEvent_of_ne hup hne).2 hanswered

/-- The loop after `select`, which changes flags. -/
def selected (io : Io) (w : Watched σ) : Watched σ :=
  { w with loop := w.loop.selected false io }

/-- The walk and `select` leave a connection that waits. -/
lemma Waiting.selected (hw : Waiting p w) (hs : w.loop.Sound) {io : Io}
    (hfresh : w.loop.transfer.Fresh io.toWalkIo) : Waiting p (w.selected io) := by
  refine ⟨hw.record, ?_, hw.reads, hw.requests⟩
  rw [Watched.selected, UTcpSocket.isError,
    (hs.selected false hfresh).1.touches.sock_mStatus (Set.notMem_empty _)]
  exact hw.sound

/-- **An iteration** handles the events of the connections that one of the polls finds. -/
lemma iterate_eq (h : Handlers σ) {io : Io} {w : Watched σ} (hs : w.loop.Attended) :
    ∃ k, w.iterate p h io =
      (w.loop.connEvents false io k).foldl (Watched.onEvent p h io) (w.selected io) := by
  obtain ⟨-, ⟨k, hdst⟩, hres⟩ :=
    ETransfer.select_spec w.loop.transfer io.polls w.loop.src
  have hls : w.loop.lsPoll.usock = w.loop.transfer.mTcpListener := rfl
  have hlist := hs.listening.available (io.polls k) hls rfl
  rw [if_pos hs.accepts] at hlist
  have hevents : (w.loop.transfer.select io.polls w.loop.src).2.1 =
      w.loop.connEvents false io k := by
    rw [hdst, ServiceLoop.src, List.flatMap_append, List.flatMap_singleton, hlist,
      List.append_nil]
    rfl
  refine ⟨k, ?_⟩
  simp only [iterate]
  rw [← hevents]
  split_ifs with hpos
  · rfl
  · rw [not_not.mp (mt hres.mpr hpos)]
    rfl

/-- The loop with one of its connections, and what happens around it. -/
def machine (p : Ptr) (h : Handlers σ) (start : ServiceLoop σ) :
    Machine (Watched σ) (LoopAct σ) where
  init := ⟨start, [], []⟩
  step
    | .connect, w => some { w with loop := { w.loop with transfer := w.loop.transfer.arrive } }
    | .iteration io, w => some (w.iterate p h io)
    | .others tables, w => some { w with loop := w.loop.setTables tables }

/-- A step is one of `job_monitor_etransfer`. -/
lemma step_loop {h : Handlers σ} {start : ServiceLoop σ} {a : LoopAct σ} {w w' : Watched σ}
    (hstep : (machine p h start).step a w = some w') :
    (loopMachine .jobMonitorEtransfer h start).step a w.loop = some w'.loop := by
  cases a with
  | connect =>
      obtain rfl := Option.some.inj hstep
      rfl
  | iteration io =>
      obtain rfl := Option.some.inj hstep
      rw [loop_iterate]
      rfl
  | others tables =>
      obtain rfl := Option.some.inj hstep
      rfl

/-- **The runs are those of `job_monitor_etransfer`.** -/
theorem loop_of_reach {h : Handlers σ} {start : ServiceLoop σ}
    (hw : (machine p h start).Reach (fun w a => FreshIo w.loop a) w) :
    (loopMachine .jobMonitorEtransfer h start).Reach FreshIo w.loop :=
  hw.simulate (f := Watched.loop) rfl fun _ a _ _ _ hg hs => .inr ⟨a, hg, step_loop hs⟩

/-- The invariant of a registered connection: as long as no read failed and none found the end of
the stream, it waits or was answered. -/
structure Inv (p : Ptr) (w : Watched σ) : Prop where
  attended : w.loop.Attended
  listener : p ≠ w.loop.transfer.mTcpListener
  isSome : (w.loop.transfer.sockets p).isSome
  phase : Reads w.reads → Phase p w

/-- One iteration keeps the invariant. The phase is known only as long as every read gave data
or EAGAIN; the rest does not depend on what was read. -/
lemma Inv.iterate (hw : Inv p w) (h : Handlers σ) {io : Io}
    (hfresh : w.loop.transfer.Fresh io.toWalkIo) : Inv p (w.iterate p h io) := by
  have hs := hw.attended.toSound
  obtain ⟨k, heq⟩ := iterate_eq (p := p) h hw.attended
  obtain ⟨hselect, hlistener⟩ := hs.selected false hfresh
  have hne : ∀ up ∈ w.loop.connEvents false io k,
      up.usock ≠ (w.selected io).loop.transfer.mTcpListener := by
    intro up hup
    obtain ⟨it, -, -, hne, -⟩ := ServiceLoop.mem_connEvents hs hup
    exact fun hc => hne (hc.trans hlistener)
  have hserved := ServiceLoop.served_foldl (S := {q | q ≠ w.loop.transfer.mTcpListener})
    (ServiceLoop.serves_jobMonitorSocket h) io fun up hup =>
      ⟨fun hc => hne up hup (hc.trans hlistener.symm), hne up hup⟩
  rw [← loop_foldl p, ← heq] at hserved
  have htouch := (hselect.touches.mono (Set.empty_subset _)).trans hserved.touches
  refine ⟨?_, ?_, ?_, fun hreads => ?_⟩
  · rw [loop_iterate]
    exact hw.attended.iterate (ServiceLoop.serves_jobMonitorSocket h) false hfresh
  · rw [htouch.mTcpListener]
    exact hw.listener
  · rw [htouch.isSome]
    exact hw.isSome
  · rw [heq] at hreads ⊢
    obtain ⟨more, hmore⟩ := reads_foldl p h io (w.loop.connEvents false io k) (w.selected io)
    have hbefore : Reads w.reads := fun a ha =>
      hreads a (hmore ▸ List.mem_append_left more ha)
    refine phase_foldl ((hselect.touches.isSome p).trans hw.isSome)
      (fun hc => hw.listener (hc.trans hlistener)) hne ?_ hreads
    rcases hw.phase hbefore with hwait | hanswered
    · -- its record makes `select` find a read event or none
      refine .inl ⟨hwait.selected hs hfresh, ?_⟩
      rw [ServiceLoop.filter_connEvents hs false io k hwait.record]
      exact ServiceLoop.available_read hwait.sound hw.listener
    · refine .inr ⟨⟨hanswered.record, hanswered.handled⟩, fun up hup husock => ?_⟩
      obtain ⟨it, hit, -, -, hfound⟩ := ServiceLoop.mem_connEvents hs hup
      rw [husock] at hit
      exact ServiceLoop.available_write (hanswered.record it hit) hfound

/-- The connection is registered for reading, and its socket is not in error. -/
structure Registered (p : Ptr) (start : ServiceLoop σ) : Prop where
  attended : start.Attended
  record : start.mTcpMap[p]? = some (readEvent p)
  sound : (start.transfer.sock p).isError = false

/-- The invariant holds along every run of `job_monitor_etransfer` that starts with the connection
registered. -/
lemma inv_of_reach {h : Handlers σ} {start : ServiceLoop σ} (hstart : Registered p start)
    (hw : (machine p h start).Reach (fun w a => FreshIo w.loop a) w) : Inv p w := by
  refine hw.invariant (I := Inv p) ?_ ?_
  · have hreg := hstart.attended.registered p _ hstart.record
    exact ⟨hstart.attended, hreg.2.1, hreg.2.2,
      fun _ => .inl ⟨hstart.record, hstart.sound, rfl, rfl⟩⟩
  · intro w a w' _ hinv hg hstep
    cases a with
    | iteration io =>
        obtain rfl := Option.some.inj hstep
        exact hinv.iterate h hg
    | connect =>
        obtain rfl := Option.some.inj hstep
        refine ⟨⟨⟨{ hinv.attended.listening with }, hinv.attended.registered⟩,
          hinv.attended.accepts⟩, hinv.listener, hinv.isSome, fun hreads => ?_⟩
        exact (hinv.phase hreads).imp (fun hp => ⟨hp.record, hp.sound, hp.reads, hp.requests⟩)
          fun hp => ⟨hp.record, hp.handled⟩
    | others tables =>
        obtain rfl := Option.some.inj hstep
        refine ⟨hinv.attended.setTables tables, hinv.listener, hinv.isSome, fun hreads => ?_⟩
        exact (hinv.phase hreads).imp (fun hp => ⟨hp.record, hp.sound, hp.reads, hp.requests⟩)
          fun hp => ⟨hp.record, hp.handled⟩

end Watched

/-! ### The segments of a message -/

/-- The segments in which the bytes of a message arrive. -/
structure Segments (msg : Bytes) where
  chunks : List Bytes
  nonempty : ∀ c ∈ chunks, c ≠ []
  join : chunks.flatten = msg

/-- The first segment. -/
def Segments.first {msg : Bytes} (segs : Segments msg) : Bytes := segs.chunks.headD []

/-- What `::recv` answered on the connection: would-block errors, and segments from the
first on, at least one. -/
structure Delivered {msg : Bytes} (segs : Segments msg) (reads : List RecvAnswer) : Prop where
  answers : ∀ a ∈ reads, a = .error eagain ∨ ∃ c ∈ segs.chunks, a = .data c
  order : ∃ n, 0 < n ∧ reads.filterMap RecvAnswer.bytes = segs.chunks.take n

namespace Segments

variable {msg : Bytes}

/-- A message that is not empty has a first segment. -/
lemma chunks_eq (segs : Segments msg) (hmsg : msg ≠ []) :
    segs.chunks = segs.first :: segs.chunks.tail := by
  cases hchunks : segs.chunks with
  | nil =>
      refine absurd segs.join.symm ?_
      rwa [hchunks]
  | cons c rest => rw [first, hchunks, List.headD_cons, List.tail_cons]

lemma first_ne_nil (segs : Segments msg) (hmsg : msg ≠ []) : segs.first ≠ [] :=
  segs.nonempty _ (segs.chunks_eq hmsg ▸ List.mem_cons_self)

/-- The message begins with the first segment. -/
lemma first_prefix (segs : Segments msg) (hmsg : msg ≠ []) : segs.first <+: msg := by
  refine ⟨segs.chunks.tail.flatten, ?_⟩
  rw [← List.flatten_cons, ← segs.chunks_eq hmsg, segs.join]

end Segments

/-- **Segmentation is harmless**: whatever else the loop serves, and whatever is left in
its receive buffer, it handles one request for the connection, the one that was sent. -/
def SegmentsHarmless (req : ClientRequest) (segs : Segments req.encode) : Prop :=
  ∀ (σ : Type) (h : Handlers σ) (start : ServiceLoop σ) (p : Ptr) (w : Watched σ),
    Watched.Registered p start → start.recvBuffer.length = msgBuffSize →
    (Watched.machine p h start).Reach (fun w a => FreshIo w.loop a) w →
    Delivered segs w.reads →
    ∃ buf, w.requests = [buf] ∧ parseRequest buf = some req.request

section FirstSegment

variable {req : ClientRequest} {segs : Segments req.encode}

lemma encode_ne_nil (req : ClientRequest) : req.encode ≠ [] := by
  refine List.length_pos_iff.mp (lt_of_lt_of_le ?_ (needed_le req))
  cases req with
  | submit src dist commstr numReqNodes username =>
      simp [ClientRequest.needed, ClientRequest.encode]
  | query => exact Nat.succ_pos 15
  | cancel => exact Nat.succ_pos 15

/-- A first segment with the bytes that are read is read as the request. -/
lemma parseRequest_first (h : req.encode.length ≤ msgBuffSize)
    (hfirst : req.needed ≤ segs.first.length) (rest : Bytes) :
    parseRequest (segs.first.take msgBuffSize ++ rest) = some req.request := by
  obtain ⟨more, hmore⟩ := segs.first_prefix (encode_ne_nil req)
  have hlen : segs.first.length ≤ msgBuffSize := by
    rw [← hmore, List.length_append] at h
    omega
  have htake : segs.first.take req.needed = req.encode.take req.needed := by
    conv_rhs => rw [← hmore]
    rw [List.take_append_of_le_length hfirst]
  rw [List.take_of_length_le hlen, ← List.take_append_drop req.needed segs.first, htake,
    List.append_assoc]
  exact parseRequest_append (parseRequest_take h) _

/-- With so many bytes in the first segment, the rest of the message and of the buffer do
not matter. -/
lemma harmless_of_needed (h : req.encode.length ≤ msgBuffSize)
    (hfirst : req.needed ≤ segs.first.length) : SegmentsHarmless req segs := by
  intro σ handlers start p w hreg _ hreach hdel
  have hchunks := segs.chunks_eq (encode_ne_nil req)
  have hreads : Watched.Reads w.reads := fun a ha =>
    (hdel.answers a ha).imp_right fun ⟨c, hc, heq⟩ => ⟨c, segs.nonempty c hc, heq⟩
  obtain ⟨n, hn, horder⟩ := hdel.order
  obtain ⟨n, rfl⟩ := Nat.exists_eq_add_of_le' hn
  rw [hchunks, List.take_succ_cons] at horder
  rcases (Watched.inv_of_reach hreg hreach).phase hreads with hwait | hanswered
  · rw [hwait.reads] at horder
    cases horder
  · obtain ⟨c, stale, hc, hrequests⟩ := hanswered.handled
    obtain ⟨rfl, -⟩ := List.cons.inj (hc.symm.trans horder)
    exact ⟨_, hrequests, parseRequest_first h hfirst _⟩

/-! ### A segment that is too short -/

/-- `job_monitor_etransfer` with one connection, and what was left in its buffer. -/
def oneConnection (stale : Bytes) : ServiceLoop Unit := { oneIteration with recvBuffer := stale }

/-- The first segment arrives. -/
def segmentIo (c : Bytes) : Io where
  ready := none
  accept := none
  addr := 300
  reason := 0
  polls := fun _ => ⟨fun _ => true, fun _ => false⟩
  recv := fun _ => .data c
  send := fun _ => .error eagain
  malloc := fun p => (1000 + p, [])

lemma registered_oneConnection (stale : Bytes) :
    Watched.Registered 200 (oneConnection stale) := by
  have hidle := (idle_of_reach (reach_oneClient .jobQueueResult1)).iteration
    (h := noTables) fresh_oneClient
  refine ⟨⟨⟨hidle.1.listening, hidle.1.registered⟩, hidle.1.accepts⟩, ?_, ?_⟩
  · show oneIteration.mTcpMap[200]? = some (Watched.readEvent 200)
    decide +kernel
  · show (oneIteration.transfer.sock 200).isError = false
    decide +kernel

/-- The iteration in which the first segment arrives. -/
lemma iterate_oneConnection (stale : Bytes) {c : Bytes} (hc : c ≠ []) :
    (Watched.iterate 200 noTables (segmentIo c) ⟨oneConnection stale, [], []⟩).reads =
        [.data c] ∧
      (Watched.iterate 200 noTables (segmentIo c) ⟨oneConnection stale, [], []⟩).requests =
        [c.take msgBuffSize ++ stale.drop (c.take msgBuffSize).length] := by
  let w : Watched Unit := ⟨oneConnection stale, [], []⟩
  let io := segmentIo c
  have hreg := registered_oneConnection stale
  have hatt : w.loop.Attended := hreg.attended
  have hfresh : w.loop.transfer.Fresh io.toWalkIo := fresh_oneIteration
  have hwait : Watched.Waiting 200 (w.selected io) :=
    Watched.Waiting.selected ⟨hreg.record, hreg.sound, rfl, rfl⟩ hatt.toSound hfresh
  have hlistener : 200 ≠ (w.selected io).loop.transfer.mTcpListener := by
    rw [Watched.selected, (hatt.toSound.selected false hfresh).2]
    exact (hatt.registered 200 _ hreg.record).2.1
  -- the connection is the only one that has an event
  obtain ⟨k, hiter⟩ : ∃ k, w.iterate 200 noTables io =
      (w.loop.connEvents false io k).foldl (Watched.onEvent 200 noTables io) (w.selected io) :=
    Watched.iterate_eq noTables hatt
  have hevents : w.loop.connEvents false io k = [Watched.readEvent 200] := by
    show (oneIteration.mTcpMap.toList.map (·.2)).flatMap
      (oneIteration.transfer.available ⟨fun _ => true, fun _ => false⟩) = [Watched.readEvent 200]
    decide +kernel
  rw [hevents, List.foldl_cons, List.foldl_nil] at hiter
  show (w.iterate 200 noTables io).reads = [.data c] ∧ (w.iterate 200 noTables io).requests = _
  rw [hiter]
  exact ⟨congrArg Watched.reads (Watched.onEvent_readEvent hlistener noTables io),
    (hwait.read_data hlistener noTables hc rfl).2⟩

/-- **A segment that is too short** leaves the rest of the request to what was in the
buffer. -/
lemma not_harmless_of_lt (h : req.encode.length ≤ msgBuffSize)
    (hfirst : segs.first.length < req.needed) : ¬SegmentsHarmless req segs := by
  intro hall
  have hmsg := encode_ne_nil req
  obtain ⟨stale, hstale, hne⟩ := exists_stale h hfirst
  let io := segmentIo segs.first
  let w : Watched Unit := Watched.iterate 200 noTables io ⟨oneConnection stale, [], []⟩
  obtain ⟨hreads, hrequests⟩ := iterate_oneConnection stale (segs.first_ne_nil hmsg)
  have hdel : Delivered segs w.reads := by
    rw [show w.reads = [.data segs.first] from hreads]
    have hchunks := segs.chunks_eq hmsg
    refine ⟨fun a ha => .inr ⟨segs.first, ?_, List.mem_singleton.mp ha⟩, 1, one_pos, ?_⟩
    · rw [hchunks]
      exact List.mem_cons_self
    · rw [hchunks]
      rfl
  have hfresh : (oneConnection stale).transfer.Fresh io.toWalkIo := fresh_oneIteration
  -- the handler was given the segment over what was in the buffer
  obtain ⟨buf, hbuf, hparse⟩ := hall Unit noTables (oneConnection stale) 200 w
    (registered_oneConnection stale) hstale (.step (l := .iteration io) .init hfresh rfl) hdel
  obtain ⟨rfl, -⟩ := List.cons.inj (hrequests.symm.trans hbuf)
  have htake : segs.first = req.encode.take segs.first.length :=
    List.prefix_iff_eq_take.mp (segs.first_prefix hmsg)
  have hshort : segs.first.length ≤ msgBuffSize :=
    hfirst.le.trans ((needed_le req).trans h)
  rw [List.take_of_length_le hshort] at hparse
  rw [← htake] at hne
  exact hne hparse

/-- **Segmentation is harmless** exactly when the first segment holds the bytes of the
message that are read. -/
theorem segments_harmless_iff (h : req.encode.length ≤ msgBuffSize)
    (segs : Segments req.encode) : SegmentsHarmless req segs ↔ req.needed ≤ segs.first.length :=
  ⟨fun hall => not_lt.mp fun hlt => not_harmless_of_lt h hlt hall, harmless_of_needed h⟩

end FirstSegment

/-- A query for job 0. -/
def queryZero : ClientRequest :=
  .query Words.CInt.one Words.CInt.zero (Words.zeros 8)

/-- The words that are read first, and then the two that no one reads. -/
def readFirst : Segments queryZero.encode where
  chunks := [queryZero.encode.take 16, queryZero.encode.drop 16]
  nonempty := by decide
  join := by
    rw [List.flatten_cons, List.flatten_singleton, List.take_append_drop]

/-- A query that comes in two segments is read as it was sent. -/
theorem segments_harmless_iff_twoPieces :
    readFirst.chunks.length = 2 ∧ readFirst.first.length < queryZero.encode.length ∧
      SegmentsHarmless queryZero readFirst :=
  ⟨rfl, by decide, (segments_harmless_iff (by decide) readFirst).mpr (by decide)⟩

/-- A SUBMIT of the command `a`. -/
def submitMessage : ClientRequest :=
  .submit Words.CInt.one Words.CInt.one ⟨[97], by decide⟩ Words.CInt.one ⟨[117], by decide⟩

/-- Its header first, and then its strings. -/
def headerFirst : Segments submitMessage.encode where
  chunks := [submitMessage.encode.take 24, submitMessage.encode.drop 24]
  nonempty := by decide
  join := by
    rw [List.flatten_cons, List.flatten_singleton, List.take_append_drop]

/-- A message that comes in two segments is read with the strings of another one. -/
theorem split_submit_misread : ¬SegmentsHarmless submitMessage headerFirst :=
  not_harmless_of_lt (by decide) (by decide)

end Epbs
