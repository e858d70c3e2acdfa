/-
How the connections of the two monitors end.

* `Monitor`: the two loops that answer on the connection, `job_monitor_etransfer` and
  `host_monitor_transfer_2`; `Branch`: what they do for an event, and `onSocket_eq`;
* `Happening`: what an event finds on the connection;
* `Followed`: a loop step by step, with what happened on one of its connections and the
  reply buffers that were allocated and freed for it;
* `EndsCleanly`: once the connection has ended it is gone from `m_tcp_map`, was destroyed
  once, and its reply buffers were freed once each;
* `Phase`, `Followed.Inv`: reading, replying, or gone;
* `ends_cleanly_iff`: a run in which every connection ends cleanly is one without the
  events that the monitors do not handle.
-/
import Epbs.Transfer.Segments

namespace Epbs

/-- The two loops that answer a request on its connection. -/
inductive Monitor where
  | jobMonitorEtransfer | hostMonitorTransfer2
  deriving DecidableEq, Repr

/-- The loop of a monitor. -/
def Monitor.service : Monitor → Service
  | .jobMonitorEtransfer => .jobMonitorEtransfer
  | .hostMonitorTransfer2 => .hostMonitorTransfer2

/-- What a monitor does with a request. -/
def Monitor.handle {σ : Type*} (k : Monitor) (h : Handlers σ) : Bytes → Bytes → σ → σ × Bytes :=
  match k with
  | .jobMonitorEtransfer => h.jobMonitor
  | .hostMonitorTransfer2 => h.hostMonitor

/-! ### The destroy list -/

namespace ETransfer

lemma mDestroyList_recv (t : ETransfer) (p : Ptr) (len : ℕ) (answer : RecvAnswer) :
    (t.recv p len answer).1.mDestroyList = t.mDestroyList := by
  rw [ETransfer.recv.eq_def]
  split_ifs
  · rfl
  · cases answer with
    | error errno => rfl
    | data bytes =>
        simp only
        split_ifs <;> rfl

lemma mDestroyList_send (t : ETransfer) (p : Ptr) (buf : Bytes) (answer : SendAnswer) :
    (t.send p buf answer).1.mDestroyList = t.mDestroyList := by
  rw [ETransfer.send.eq_def]
  split_ifs
  · rfl
  · cases answer <;> rfl

/-- `walk_through` destroys nothing. -/
lemma mDestroyList_walkThrough (t : ETransfer) (io : WalkIo) :
    (t.walkThrough io).mDestroyList = t.mDestroyList := by
  have hlisten : (t.listened io).mDestroyList = t.mDestroyList := by
    rcases t.listened_cases io with heq | ⟨newSock, c, rest, -, -, heq⟩ <;> rw [heq]
    rfl
  have hproc : ∀ (sets : FdSets) (ps : List Ptr) (t : ETransfer),
      (ps.foldl (fun t p => t.setSock p (procSocket sets)) t).mDestroyList = t.mDestroyList := by
    intro sets ps
    induction ps with
    | nil => exact fun _ => rfl
    | cons p ps ih => exact fun t => ih (t.setSock p (procSocket sets))
  rcases walkThrough_eq t io with heq | ⟨r, sets, -, -, heq⟩
  · rw [heq, hlisten]
  · rw [heq, procTcpSocket, hproc, hlisten]

/-- `select` destroys nothing. -/
lemma mDestroyList_select (t : ETransfer) (polls : ℕ → Poll) (src : List Upoll) :
    (t.select polls src).1.mDestroyList = t.mDestroyList := by
  have hneeds : ∀ (src : List Upoll) (t : ETransfer),
      (t.setNeeds src).mDestroyList = t.mDestroyList := by
    intro src
    induction src with
    | nil => exact fun _ => rfl
    | cons it src ih => exact fun t => ih _
  rw [select]
  simp only
  split_ifs
  · rfl
  · exact hneeds src t

/-- A socket in error stays so in `walk_through`. -/
lemma isError_walkThrough {t : ETransfer} {io : WalkIo} (hfresh : t.Fresh io) {p : Ptr}
    (hp : (t.sockets p).isSome) (h : (t.sock p).isError = true) :
    ((t.walkThrough io).sock p).isError = true := by
  have hsame : (t.listened io).sock p = t.sock p := by
    rw [sock, sockets_listened hfresh hp, sock]
  have hkeep : ∀ (sets : FdSets) (s : UTcpSocket), s.isError = true →
      (procSocket sets s).isError = true := by
    intro sets s hs
    have hstatus : s.mStatus = .error := by simpa [UTcpSocket.isError] using hs
    by_cases hmem : s.mSock ∈ sets.eset
    · rw [procSocket, if_pos hmem]
      rfl
    · rw [procSocket, if_neg hmem]
      simp [UTcpSocket.isError, hstatus]
  have hproc : ∀ (sets : FdSets) (ps : List Ptr) (t : ETransfer), (t.sock p).isError = true →
      ((ps.foldl (fun t q => t.setSock q (procSocket sets)) t).sock p).isError = true := by
    intro sets ps
    induction ps with
    | nil => exact fun _ h => h
    | cons q ps ih =>
        exact fun t h => ih _ (sock_setSock (P := (·.isError = true)) (hkeep sets) q h)
  rcases walkThrough_eq t io with heq | ⟨r, sets, -, -, heq⟩
  · rw [heq, hsame]
    exact h
  · rw [heq]
    exact hproc sets _ _ (hsame ▸ h)

end ETransfer

/-! ### The branches -/

/-- What a monitor does for an event of a connection: the reply is sent, or the connection
is given up after `recv`, or a reply is prepared, or the connection stays after `recv`, or
it is destroyed, or nothing is done. -/
inductive Branch where
  | reply | giveUp | answer | stay | close | ignore
  deriving DecidableEq, Repr

namespace Branch

variable {σ : Type*}

/-- What a branch does. -/
def run (b : Branch) (handle : Bytes → Bytes → σ → σ × Bytes) (io : Io) (up : Upoll)
    (s : ServiceLoop σ) : ServiceLoop σ :=
  match b with
  | reply => s.sendReply io up
  | giveUp => (s.receive io up.usock).1.destroy up.usock
  | answer => (s.receive io up.usock).1.prepareReply io up.usock handle
  | stay => (s.receive io up.usock).1
  | close => s.destroy up.usock
  | ignore => s

/-- The sockets that a branch passes to `destroy_socket`. -/
def destroyed (b : Branch) (up : Upoll) : List Ptr :=
  match b with
  | reply | giveUp | close => [up.usock]
  | answer | stay | ignore => []

/-- The reply buffers that a branch allocates. -/
def allocated (b : Branch) (io : Io) (up : Upoll) : List Ptr :=
  match b with
  | answer => [(io.malloc up.usock).1]
  | _ => []

/-- The reply buffers that a branch frees. -/
def freed (b : Branch) (up : Upoll) : List Ptr :=
  match b with
  | reply => up.pointer.toList
  | _ => []

variable (b : Branch) (handle : Bytes → Bytes → σ → σ × Bytes) (io : Io) (up : Upoll)
  (s : ServiceLoop σ)

lemma mDestroyList_run : (b.run handle io up s).transfer.mDestroyList =
    s.transfer.mDestroyList ++ b.destroyed up := by
  have hrecv : (s.receive io up.usock).1.transfer.mDestroyList = s.transfer.mDestroyList :=
    ETransfer.mDestroyList_recv ..
  cases b with
  | reply =>
      have hsend (reply : Bytes) (answer : SendAnswer) :
          (s.transfer.send up.usock reply answer).1.mDestroyList = s.transfer.mDestroyList :=
        ETransfer.mDestroyList_send ..
      show (ETransfer.send ..).1.mDestroyList ++ [up.usock] = _
      rw [hsend]
      rfl
  | giveUp =>
      show (s.receive io up.usock).1.transfer.mDestroyList ++ [up.usock] = _
      rw [hrecv]
      rfl
  | answer => exact hrecv.trans (List.append_nil _).symm
  | stay => exact hrecv.trans (List.append_nil _).symm
  | close => rfl
  | ignore => exact (List.append_nil _).symm

/-- The record of the socket after a branch. -/
lemma record_run : (b.run handle io up s).mTcpMap[up.usock]? =
    match b with
    | reply | giveUp | close => none
    | answer => some ⟨up.usock, upollWriteT, some (io.malloc up.usock).1⟩
    | stay | ignore => s.mTcpMap[up.usock]? := by
  cases b with
  | reply => exact Std.TreeMap.getElem?_erase_self
  | giveUp => exact Std.TreeMap.getElem?_erase_self
  | answer => exact Std.TreeMap.getElem?_insert_self
  | stay => rfl
  | close => exact Std.TreeMap.getElem?_erase_self
  | ignore => rfl

end Branch

namespace Monitor

variable {σ : Type*}

/-- The branch that a monitor takes for an event. -/
def branch (k : Monitor) (io : Io) (up : Upoll) (s : ServiceLoop σ) : Branch :=
  match k with
  | jobMonitorEtransfer =>
      match s.outcome io up with
      | .sent => .reply
      | .failed => .giveUp
      | .answered => .answer
      | .pending => .stay
      | .untouched => .ignore
  | hostMonitorTransfer2 =>
      if up.has upollReadT then if 0 < (s.receive io up.usock).2 then .answer else .stay
      else if up.has upollWriteT then .reply
      else if up.has upollErrorT then .close
      else .ignore

/-- **An event of a connection** in each of the branches. -/
lemma onSocket_eq (k : Monitor) (h : Handlers σ) (io : Io) (up : Upoll) (s : ServiceLoop σ) :
    k.service.onSocket h io up s = (k.branch io up s).run (k.handle h) io up s := by
  cases k with
  | jobMonitorEtransfer =>
      show ServiceLoop.jobMonitorSocket h io up s = _
      rw [ServiceLoop.jobMonitorSocket_eq, branch]
      cases s.outcome io up <;> rfl
  | hostMonitorTransfer2 =>
      show ServiceLoop.hostMonitorSocket h io up s = _
      rw [ServiceLoop.hostMonitorSocket, branch]
      simp only
      split_ifs <;> rfl

end Monitor

/-! ### What happens on a connection -/

/-- What an event finds on its connection: bytes, nothing yet, the end of the stream, a
hard error of `::recv`, the error status, or room for the reply. -/
inductive Happening where
  | data | again | closed | failed | error | written
  deriving DecidableEq, Repr

/-- What the answer of `::recv` is. -/
def RecvAnswer.happening : RecvAnswer → Happening
  | .data bytes => if bytes.take msgBuffSize = [] then .closed else .data
  | .error errno => if errno = eagain then .again else .failed

/-- What an event finds. -/
def ServiceLoop.happening {σ : Type*} (io : Io) (up : Upoll) (s : ServiceLoop σ) : Happening :=
  if up.has upollWriteT then .written
  else if up.has upollReadT then (io.recv (s.transfer.sock up.usock).mSock).happening
  else .error

/-- **The events that a monitor handles**: not the end of the stream, and an error only in
`host_monitor_transfer_2` and only before a reply buffer was allocated. -/
def Monitor.Handles (k : Monitor) (x : Happening) (pointer : Option Ptr) : Prop :=
  match x with
  | .closed => False
  | .error => k = .hostMonitorTransfer2 ∧ pointer = none
  | _ => True

namespace Monitor

variable {σ : Type*} {up : Upoll} (k : Monitor) (s : ServiceLoop σ) (io : Io)

/-- An event with room for the reply. -/
lemma branch_of_write (h : up.events = upollWriteT) :
    k.branch io up s = .reply ∧ s.happening io up = .written := by
  obtain ⟨hread, hwrite⟩ := Upoll.has_of_write h
  refine ⟨?_, by rw [ServiceLoop.happening, if_pos hwrite]⟩
  cases k with
  | jobMonitorEtransfer =>
      have houtcome : s.outcome io up = .sent := by
        simp only [ServiceLoop.outcome, hwrite, if_true]
      rw [branch, houtcome]
  | hostMonitorTransfer2 =>
      rw [branch]
      simp only [hread, hwrite, Bool.false_eq_true, if_false, if_true]

/-- An error event: `job_monitor_etransfer` has no branch for it. -/
lemma branch_of_error (h : up.events = upollErrorT) :
    k.branch io up s = (match k with
      | jobMonitorEtransfer => .ignore
      | hostMonitorTransfer2 => .close) ∧ s.happening io up = .error := by
  obtain ⟨hread, hwrite, herror⟩ := Upoll.has_of_error h
  have hhappening : s.happening io up = .error := by
    rw [ServiceLoop.happening, hread, hwrite]
    rfl
  refine ⟨?_, hhappening⟩
  cases k with
  | jobMonitorEtransfer =>
      have houtcome : s.outcome io up = .untouched := by
        simp only [ServiceLoop.outcome, hread, hwrite, Bool.false_eq_true, if_false]
      rw [branch, houtcome]
  | hostMonitorTransfer2 =>
      rw [branch]
      simp only [hread, hwrite, herror, Bool.false_eq_true, if_false, if_true]

/-- What `job_monitor_etransfer` does for a read event, by the result of `recv`. -/
lemma outcome_of_read (h : up.events = upollReadT) :
    s.outcome io up =
      if msgBuffSize < (s.receive io up.usock).2 ∨ ((s.receive io up.usock).2 < 0 ∧
          ((s.receive io up.usock).1.transfer.sock up.usock).mReason ≠ eagain) then .failed
      else if 0 < (s.receive io up.usock).2 then .answered
      else .pending := by
  obtain ⟨hread, hwrite, herror⟩ := Upoll.has_of_read h
  simp only [ServiceLoop.outcome, hread, hwrite, herror, Bool.false_eq_true, if_false, if_true,
    or_false]

/-- **A read event** of a socket that is not in error: the end of the stream has no branch
of its own, and a hard error has none in `host_monitor_transfer_2`, where it is noted in
the socket. -/
lemma branch_of_read (h : up.events = upollReadT)
    (hsome : (s.transfer.sockets up.usock).isSome)
    (hsound : (s.transfer.sock up.usock).isError = false) :
    match s.happening io up with
    | .data => k.branch io up s = .answer
    | .again => k.branch io up s = .stay
    | .closed => k.branch io up s = .stay
    | .failed =>
        match k with
        | jobMonitorEtransfer => k.branch io up s = .giveUp
        | hostMonitorTransfer2 => k.branch io up s = .stay ∧
            ((s.receive io up.usock).1.transfer.sock up.usock).isError = true
    | _ => False := by
  obtain ⟨hread, hwrite, -⟩ := Upoll.has_of_read h
  have hhappening : s.happening io up = (io.recv (s.transfer.sock up.usock).mSock).happening := by
    rw [ServiceLoop.happening, hwrite, hread]
    rfl
  have hhost : hostMonitorTransfer2.branch io up s =
      if 0 < (s.receive io up.usock).2 then .answer else .stay := by
    simp only [branch, hread, if_true]
  rw [hhappening]
  cases hrecv : io.recv (s.transfer.sock up.usock).mSock with
  | data bytes =>
      -- `recv` answers 0 at the end of the stream, and 0 is neither data nor an error here
      by_cases hnil : bytes.take msgBuffSize = []
      · have hsize := ServiceLoop.receive_closed hsound hrecv hnil
        simp only [RecvAnswer.happening, hnil, if_true]
        cases k with
        | jobMonitorEtransfer => simp [branch, outcome_of_read s io h, hsize, msgBuffSize]
        | hostMonitorTransfer2 => simp [hhost, hsize]
      · have hsize := congrArg Prod.snd (ServiceLoop.receive_data hsound hrecv hnil)
        have hle := ServiceLoop.length_received bytes
        have hpos := List.length_pos_iff.mpr hnil
        simp only at hsize
        simp only [RecvAnswer.happening, hnil, if_false]
        cases k with
        | jobMonitorEtransfer =>
            simp only [branch, outcome_of_read s io h, hsize, hle, Int.natCast_pos, hpos,
              (Int.natCast_nonneg _).not_gt, false_and, or_self, if_false, if_true]
        | hostMonitorTransfer2 =>
            rw [hhost, hsize, if_pos (by omega)]
  | error errno =>
      have hreceive := ServiceLoop.receive_error hsound hrecv
      have hsize : (s.receive io up.usock).2 = -1 := congrArg Prod.snd hreceive
      have hnote : (s.receive io up.usock).1.transfer = s.transfer.noteError up.usock errno :=
        congrArg (·.1.transfer) hreceive
      have hsock := ETransfer.sock_noteError hsome errno
      rw [← hnote] at hsock
      -- every errno is kept as the reason, and all but EAGAIN put the socket in error
      by_cases heagain : errno = eagain
      · simp only [RecvAnswer.happening, heagain, if_true]
        cases k with
        | jobMonitorEtransfer =>
            simp [branch, outcome_of_read s io h, hsize, hsock, heagain, msgBuffSize]
        | hostMonitorTransfer2 => simp [hhost, hsize]
      · simp only [RecvAnswer.happening, heagain, if_false]
        cases k with
        | jobMonitorEtransfer => simp [branch, outcome_of_read s io h, hsize, hsock, heagain]
        | hostMonitorTransfer2 => simp [hhost, hsize, hsock, heagain, UTcpSocket.isError]

end Monitor

/-! ### One connection, step by step -/

/-- A monitor, and for one of its connections what its events found and the reply buffers
that were allocated and freed for it. -/
structure Followed (σ : Type*) where
  loop : ServiceLoop σ
  past : List Happening
  allocated : List Ptr
  freed : List Ptr

/-- The steps of which the iterations of a loop are made, and what other threads do: a call
of `walk_through`, the flags that `select` sets, an event that a poll finds, the `accept`
of the listener's event. -/
inductive LoopStep (σ : Type*) where
  | walk (io : WalkIo)
  | select (polls : ℕ → Poll)
  | event (poll : Poll) (io : Io) (up : Upoll)
  | accept
  | others (tables : σ)

/-- The kernel gives unused descriptors, and the allocator unused memory. -/
def LoopStep.Fresh {σ : Type*} (s : ServiceLoop σ) : LoopStep σ → Prop
  | .walk io => s.transfer.Fresh io
  | _ => True

/-- The events that a poll finds for a registered connection. -/
def ServiceLoop.found {σ : Type*} (s : ServiceLoop σ) (poll : Poll) (p : Ptr) : List Upoll :=
  (s.mTcpMap[p]?).elim [] (s.transfer.available poll)

namespace Followed

variable {σ : Type*} {p : Ptr} {w w' : Followed σ}

/-- An event of the connection. -/
def onEvent (k : Monitor) (h : Handlers σ) (io : Io) (up : Upoll) (w : Followed σ) :
    Followed σ where
  loop := k.service.onSocket h io up w.loop
  past := w.past ++ [w.loop.happening io up]
  allocated := w.allocated ++ (k.branch io up w.loop).allocated io up
  freed := w.freed ++ (k.branch io up w.loop).freed up

/-- The loop moves on, and nothing happens on the connection. -/
def withLoop (w : Followed σ) (loop : ServiceLoop σ) : Followed σ := { w with loop := loop }

/-- The loop around the connection `p`, event by event, with what happened on it and which reply
buffers were allocated and freed for it. -/
def machine (k : Monitor) (h : Handlers σ) (p : Ptr) (start : ServiceLoop σ) :
    Machine (Followed σ) (LoopStep σ) where
  init := ⟨start, [], [], []⟩
  step
    | .walk io, w =>
        some (w.withLoop { w.loop with transfer := w.loop.transfer.walkThrough io })
    | .select polls, w =>
        some (w.withLoop
          { w.loop with transfer := (w.loop.transfer.select polls w.loop.src).1 })
    | .event poll io up, w =>
        if up ∈ w.loop.found poll up.usock then
          if up.usock = p then some (w.onEvent k h io up)
          else some (w.withLoop (k.service.onSocket h io up w.loop))
        else none
    | .accept, w => some (w.withLoop w.loop.acceptConnection)
    | .others tables, w => some (w.withLoop (w.loop.setTables tables))

/-- The connection has ended: the peer has closed, the socket is in error or the reply was
written; or `recv` had failed before the last event. -/
def Ended (past : List Happening) : Prop :=
  .closed ∈ past ∨ .error ∈ past ∨ .written ∈ past ∨ .failed ∈ past.dropLast

/-- The connection is gone: it is not in `m_tcp_map`, was destroyed once, and of the reply
buffers that were allocated for it each was freed. -/
structure Gone (p : Ptr) (w : Followed σ) : Prop where
  record : w.loop.mTcpMap[p]? = none
  destroyed : w.loop.transfer.mDestroyList.count p = 1
  freed : w.freed = w.allocated

/-- **A clean ending.** -/
def EndsCleanly (p : Ptr) (w : Followed σ) : Prop := Ended w.past → Gone p w

/-- The connection was just accepted and registered: it waits for a request, and is neither in the
accept list nor destroyed. -/
structure Connected (p : Ptr) (start : ServiceLoop σ) : Prop where
  record : start.mTcpMap[p]? = some (Watched.readEvent p)
  isSome : (start.transfer.sockets p).isSome
  accepts : p ∉ start.transfer.mTcpAcceptList
  destroyed : p ∉ start.transfer.mDestroyList

/-! ### The phases -/

/-- Nothing happened but reads. -/
def Reads (past : List Happening) : Prop := ∀ x ∈ past, x = .data ∨ x = .again

lemma Reads.append {past : List Happening} {x : Happening} (h : Reads past)
    (hx : x = .data ∨ x = .again) : Reads (past ++ [x]) := by
  intro y hy
  rcases List.mem_append.mp hy with hy | hy
  · exact h y hy
  · rw [List.mem_singleton.mp hy]
    exact hx

/-- After reads the connection has not ended, and neither has it right after a failure. -/
lemma Reads.not_ended {past : List Happening} (h : Reads past) :
    ¬Ended past ∧ ¬Ended (past ++ [.failed]) := by
  have hnot : ∀ x, x ≠ .data → x ≠ .again → x ∉ past := by
    intro x hdata hagain hx
    exact (h x hx).elim hdata hagain
  have hdrop : .failed ∉ past.dropLast := fun hc =>
    hnot .failed (by decide) (by decide) (List.mem_of_mem_dropLast hc)
  constructor
  · simp [Ended, hnot, hdrop]
  · simp [Ended, hnot]

/-- Where the connection stands: it is read, it waits for its reply, or it is gone. -/
inductive Phase (p : Ptr) (w : Followed σ) : Prop
  | reading (record : w.loop.mTcpMap[p]? = some (Watched.readEvent p))
      (destroyed : w.loop.transfer.mDestroyList.count p = 0) (allocated : w.allocated = [])
      (freed : w.freed = [])
      (past : Reads w.past ∨ (w.loop.transfer.sock p).isError = true ∧
        ∃ pre, w.past = pre ++ [.failed] ∧ Reads pre)
  | replying (q : Ptr) (record : w.loop.mTcpMap[p]? = some ⟨p, upollWriteT, some q⟩)
      (destroyed : w.loop.transfer.mDestroyList.count p = 0) (allocated : w.allocated = [q])
      (freed : w.freed = []) (past : Reads w.past)
  | gone (gone : Gone p w)

/-- The invariant of a connection that ends cleanly: it has a socket, was handed out, and is in one
of the phases. -/
structure Inv (p : Ptr) (w : Followed σ) : Prop where
  isSome : (w.loop.transfer.sockets p).isSome
  accepts : p ∉ w.loop.transfer.mTcpAcceptList
  phase : Phase p w

lemma Phase.endsCleanly (h : Phase p w) : EndsCleanly p w := by
  intro hend
  cases h with
  | reading record destroyed allocated freed past =>
      rcases past with hreads | ⟨-, pre, heq, hreads⟩
      · exact absurd hend hreads.not_ended.1
      · rw [heq] at hend
        exact absurd hend hreads.not_ended.2
  | replying q record destroyed allocated freed past => exact absurd hend past.not_ended.1
  | gone hgone => exact hgone

/-- What a step has to leave for the invariant. The socket may get into error, as it does at the
next walk or poll, but does not get out of it. -/
structure Leaves (p : Ptr) (s s' : ServiceLoop σ) : Prop where
  record : s'.mTcpMap[p]? = s.mTcpMap[p]?
  destroyed : s'.transfer.mDestroyList.count p = s.transfer.mDestroyList.count p
  isSome : (s.transfer.sockets p).isSome → (s'.transfer.sockets p).isSome
  isError : (s.transfer.sock p).isError = true → (s'.transfer.sock p).isError = true
  accepts : p ∉ s.transfer.mTcpAcceptList → p ∉ s'.transfer.mTcpAcceptList

/-- **The frame rule.** -/
lemma Inv.frame (hw : Inv p w) {loop : ServiceLoop σ} (h : Leaves p w.loop loop) :
    Inv p (w.withLoop loop) := by
  refine ⟨h.isSome hw.isSome, h.accepts hw.accepts, ?_⟩
  cases hw.phase with
  | reading record destroyed allocated freed past =>
      exact .reading (h.record.trans record) (h.destroyed.trans destroyed) allocated freed
        (past.imp_right fun hfail => ⟨h.isError hfail.1, hfail.2⟩)
  | replying q record destroyed allocated freed past =>
      exact .replying q (h.record.trans record) (h.destroyed.trans destroyed) allocated freed past
  | gone hgone =>
      exact .gone ⟨h.record.trans hgone.record, h.destroyed.trans hgone.destroyed, hgone.freed⟩

/-- Calls that touch other sockets. -/
lemma Leaves.of_served {S : Set Ptr} {s s' : ServiceLoop σ} (h : ServiceLoop.Served S s s')
    (hp : p ∉ S) (hlist : s'.transfer.mDestroyList.count p = s.transfer.mDestroyList.count p) :
    Leaves p s s' where
  record := h.others p hp
  destroyed := hlist
  isSome hsome := (h.touches.isSome p).trans hsome
  isError herror := by
    rw [UTcpSocket.isError, h.touches.sock_mStatus hp]
    exact herror
  accepts hnot := by
    rw [h.touches.mTcpAcceptList]
    exact hnot

/-- `walk_through` leaves a registered connection, but may put its socket in error. -/
lemma leaves_walk {s : ServiceLoop σ} {io : WalkIo} (hfresh : s.transfer.Fresh io)
    (hp : (s.transfer.sockets p).isSome) :
    Leaves p s { s with transfer := s.transfer.walkThrough io } where
  record := rfl
  destroyed := congrArg (List.count p) (ETransfer.mDestroyList_walkThrough s.transfer io)
  isSome _ := (ETransfer.sock_walkThrough hfresh hp).2
  isError := ETransfer.isError_walkThrough hfresh hp
  accepts hnot := by
    have haccepts := (ETransfer.touches_walkThrough s.transfer io).mTcpAcceptList
    show p ∉ (s.transfer.walkThrough io).mTcpAcceptList
    rw [haccepts]
    rcases s.transfer.listened_cases io with heq | ⟨newSock, c, rest, -, -, heq⟩
    · rw [heq]
      exact hnot
    · rw [heq]
      rintro hmem
      rcases List.mem_append.mp hmem with hold | hnew
      · exact hnot hold
      · -- the new socket is another object
        rw [List.mem_singleton.mp hnew, hfresh.addr] at hp
        cases hp

/-- An `accept` registers another connection. -/
lemma leaves_accept {s : ServiceLoop σ} (hp : p ∉ s.transfer.mTcpAcceptList) :
    Leaves p s s.acceptConnection := by
  cases hlist : s.transfer.mTcpAcceptList with
  | nil =>
      rw [ServiceLoop.acceptConnection_of_nil hlist]
      exact .of_served (.refl ∅ s) (Set.notMem_empty p) rfl
  | cons q rest =>
      have hqp : p ≠ q := fun hc => hp (by rw [hlist, hc]; exact List.mem_cons_self)
      rw [ServiceLoop.acceptConnection, ETransfer.accept_of_cons hlist]
      refine ⟨?_, rfl, fun hsome => ?_, fun herror => ?_, fun hnot hc => ?_⟩
      · rw [Std.TreeMap.getElem?_insert, if_neg]
        rw [Std.LawfulEqCmp.compare_eq_iff_eq]
        exact hqp.symm
      · simpa [ETransfer.setSock, hqp] using hsome
      · simpa [ETransfer.sock, ETransfer.setSock, hqp] using herror
      · rw [hlist] at hnot
        exact hnot (List.mem_cons_of_mem q hc)

/-! ### The events of the connection -/

/-- What a poll finds for a record: the error status, or an event it asks for. -/
lemma cases_of_available {t : ETransfer} {poll : Poll} {it up : Upoll}
    (h : up ∈ t.available poll it) :
    ((t.sock it.usock).isError = true ∧ up = { it with events := upollErrorT }) ∨
      ((t.sock it.usock).isError = false ∧
        (it.has upollWriteT = true ∧ up = { it with events := upollWriteT } ∨
          it.has upollReadT = true ∧ up = { it with events := upollReadT })) := by
  rw [ETransfer.available] at h
  cases herror : (t.sock it.usock).isError with
  | true =>
      rw [if_pos herror, List.mem_singleton] at h
      exact .inl ⟨rfl, h⟩
  | false =>
      rw [if_neg (by simp [herror]), List.mem_append] at h
      refine .inr ⟨rfl, ?_⟩
      rcases h with h | h
      · obtain ⟨hfound, hup⟩ := List.mem_ite_nil_right.mp h
        exact .inl ⟨(Bool.and_eq_true_iff.mp hfound).1, List.mem_singleton.mp hup⟩
      · obtain ⟨hfound, hup⟩ := List.mem_ite_nil_right.mp h
        exact .inr ⟨(Bool.and_eq_true_iff.mp hfound).1, List.mem_singleton.mp hup⟩

section Event

variable {k : Monitor} {h : Handlers σ} {io : Io} {up : Upoll}

/-- What an event of the connection leaves, by the branch. -/
lemma record_onEvent (hup : up.usock = p) :
    (w.onEvent k h io up).loop.mTcpMap[p]? =
      match k.branch io up w.loop with
      | .reply | .giveUp | .close => none
      | .answer => some ⟨p, upollWriteT, some (io.malloc p).1⟩
      | .stay | .ignore => w.loop.mTcpMap[p]? := by
  rw [onEvent, k.onSocket_eq, ← hup]
  exact Branch.record_run ..

lemma destroyed_onEvent : (w.onEvent k h io up).loop.transfer.mDestroyList =
    w.loop.transfer.mDestroyList ++ (k.branch io up w.loop).destroyed up := by
  rw [onEvent, k.onSocket_eq]
  exact Branch.mDestroyList_run ..

/-- An event keeps the socket and puts nothing on the accept list. -/
lemma Inv.of_phase (hw : Inv p w) (hphase : Phase p (w.onEvent k h io up)) :
    Inv p (w.onEvent k h io up) := by
  have htouch := (k.service.serves_onSocket h io up w.loop).touches
  refine ⟨(htouch.isSome p).trans hw.isSome, ?_, hphase⟩
  show p ∉ (k.service.onSocket h io up w.loop).transfer.mTcpAcceptList
  rw [htouch.mTcpAcceptList]
  exact hw.accepts

/-- The end of the connection, by a branch that destroys it. -/
lemma gone_onEvent (hup : up.usock = p) (hlist : w.loop.transfer.mDestroyList.count p = 0)
    (hbranch : (k.branch io up w.loop).destroyed up = [up.usock])
    (hfreed : (w.onEvent k h io up).freed = (w.onEvent k h io up).allocated) :
    Gone p (w.onEvent k h io up) := by
  refine ⟨?_, ?_, hfreed⟩
  · rw [record_onEvent hup]
    cases hb : k.branch io up w.loop <;> rw [hb] at hbranch <;> first | rfl | cases hbranch
  · rw [destroyed_onEvent, hbranch, List.count_append, hlist, hup]
    simp

/-- An event that the monitor does not handle leaves the connection behind. -/
lemma not_endsCleanly (hend : Ended (w.onEvent k h io up).past)
    (hleft : (w.onEvent k h io up).loop.mTcpMap[p]? ≠ none ∨
      (w.onEvent k h io up).freed ≠ (w.onEvent k h io up).allocated) :
    ¬EndsCleanly p (w.onEvent k h io up) := by
  intro hclean
  have hgone := hclean hend
  exact hleft.elim (fun hrecord => hrecord hgone.record) fun hfreed => hfreed hgone.freed

lemma ended_append {past : List Happening} {x : Happening}
    (hx : x = .closed ∨ x = .error ∨ x = .written) : Ended (past ++ [x]) := by
  rcases hx with rfl | rfl | rfl <;> simp [Ended]

/-- A step that the monitor handles and that keeps a phase, or one that it does not handle
and that leaves the connection behind. -/
def Decided (k : Monitor) (p : Ptr) (x : Happening) (pointer : Option Ptr) (w' : Followed σ) :
    Prop :=
  k.Handles x pointer ∧ Phase p w' ∨ ¬k.Handles x pointer ∧ ¬EndsCleanly p w'

/-- **An error event**: `job_monitor_etransfer` does nothing, and `host_monitor_transfer_2`
destroys the connection, but does not free a reply buffer. -/
lemma decided_error (hevents : up.events = upollErrorT) (hup : up.usock = p)
    (hrecord : w.loop.mTcpMap[p]? ≠ none) (hlist : w.loop.transfer.mDestroyList.count p = 0)
    (hfreed : w.freed = []) (hallocated : w.allocated = up.pointer.toList) :
    Decided k p (w.loop.happening io up) up.pointer (w.onEvent k h io up) := by
  obtain ⟨hbranch, hhappening⟩ := k.branch_of_error w.loop io hevents
  have hend : Ended (w.onEvent k h io up).past := by
    show Ended (w.past ++ [w.loop.happening io up])
    rw [hhappening]
    exact ended_append (.inr (.inl rfl))
  rw [hhappening]
  cases k with
  | jobMonitorEtransfer =>
      refine .inr ⟨fun hc => ?_, not_endsCleanly hend (.inl ?_)⟩
      · cases hc.1
      · rw [record_onEvent hup, hbranch]
        exact hrecord
  | hostMonitorTransfer2 =>
      have hbuffers : (w.onEvent .hostMonitorTransfer2 h io up).freed = [] ∧
          (w.onEvent .hostMonitorTransfer2 h io up).allocated = up.pointer.toList := by
        rw [onEvent, hbranch, hfreed, hallocated]
        exact ⟨rfl, List.append_nil _⟩
      cases hpointer : up.pointer with
      | none =>
          refine .inl ⟨⟨rfl, rfl⟩, .gone (gone_onEvent hup hlist ?_ ?_)⟩
          · rw [hbranch]
            rfl
          · rw [hbuffers.1, hbuffers.2, hpointer]
            rfl
      | some q =>
          refine .inr ⟨fun hc => ?_, not_endsCleanly hend (.inr ?_)⟩
          · cases hc.2
          · rw [hbuffers.1, hbuffers.2, hpointer]
            exact fun hc => List.cons_ne_nil q [] hc.symm

/-- A connection that stays is read on. -/
lemma reading_of_stay (hup : up.usock = p) (hb : k.branch io up w.loop = .stay)
    (hrecord : w.loop.mTcpMap[p]? = some (Watched.readEvent p))
    (hlist : w.loop.transfer.mDestroyList.count p = 0) (hallocated : w.allocated = [])
    (hfreed : w.freed = [])
    (hpast : Reads (w.onEvent k h io up).past ∨
      ((w.onEvent k h io up).loop.transfer.sock p).isError = true ∧
        ∃ pre, (w.onEvent k h io up).past = pre ++ [.failed] ∧ Reads pre) :
    Phase p (w.onEvent k h io up) := by
  refine .reading ?_ ?_ ?_ ?_ hpast
  · rw [record_onEvent hup, hb]
    exact hrecord
  · rw [destroyed_onEvent, hb, Branch.destroyed, List.append_nil]
    exact hlist
  · rw [onEvent, hb, hallocated]
    rfl
  · rw [onEvent, hb, hfreed]
    rfl

/-- A connection that is answered waits for its reply. -/
lemma replying_of_answer (hup : up.usock = p) (hb : k.branch io up w.loop = .answer)
    (hlist : w.loop.transfer.mDestroyList.count p = 0) (hallocated : w.allocated = [])
    (hfreed : w.freed = []) (hpast : Reads (w.onEvent k h io up).past) :
    Phase p (w.onEvent k h io up) := by
  refine .replying (io.malloc p).1 ?_ ?_ ?_ ?_ hpast
  · rw [record_onEvent hup, hb]
  · rw [destroyed_onEvent, hb, Branch.destroyed, List.append_nil]
    exact hlist
  · rw [onEvent, hb, hallocated, ← hup]
    rfl
  · rw [onEvent, hb, hfreed]
    rfl

/-- **A read event**: data is answered, EAGAIN leaves the connection as it was, the end of the
stream leaves it behind, and after a hard error it is destroyed at once or noted for
`walk_through`. -/
lemma decided_read (hevents : up.events = upollReadT) (hup : up.usock = p)
    (hsome : (w.loop.transfer.sockets p).isSome)
    (hsound : (w.loop.transfer.sock p).isError = false)
    (hrecord : w.loop.mTcpMap[p]? = some (Watched.readEvent p))
    (hlist : w.loop.transfer.mDestroyList.count p = 0) (hallocated : w.allocated = [])
    (hfreed : w.freed = []) (hreads : Reads w.past) :
    Decided k p (w.loop.happening io up) up.pointer (w.onEvent k h io up) := by
  subst hup
  have hbranch := k.branch_of_read w.loop io hevents hsome hsound
  have hpast : (w.onEvent k h io up).past = w.past ++ [w.loop.happening io up] := rfl
  cases hhappening : w.loop.happening io up with
  | data =>
      rw [hhappening] at hbranch hpast
      refine .inl ⟨trivial, replying_of_answer rfl hbranch hlist hallocated hfreed ?_⟩
      rw [hpast]
      exact hreads.append (.inl rfl)
  | again =>
      rw [hhappening] at hbranch hpast
      refine .inl ⟨trivial,
        reading_of_stay rfl hbranch hrecord hlist hallocated hfreed (.inl ?_)⟩
      rw [hpast]
      exact hreads.append (.inr rfl)
  | closed =>
      -- not handled by either monitor: its record stays
      rw [hhappening] at hbranch hpast
      refine .inr ⟨id, not_endsCleanly (hpast ▸ ended_append (.inl rfl)) (.inl ?_)⟩
      rw [record_onEvent rfl, hbranch, hrecord]
      exact Option.some_ne_none _
  | failed =>
      rw [hhappening] at hbranch hpast
      refine .inl ⟨trivial, ?_⟩
      -- the two monitors reach different phases: gone now, or in error until the next walk
      cases k with
      | jobMonitorEtransfer =>
          refine .gone (gone_onEvent rfl hlist ?_ ?_)
          · rw [hbranch]
            rfl
          · rw [onEvent, hbranch, hfreed, hallocated]
            rfl
      | hostMonitorTransfer2 =>
          refine reading_of_stay rfl hbranch.1 hrecord hlist hallocated hfreed
            (.inr ⟨?_, w.past, hpast, hreads⟩)
          rw [onEvent, Monitor.onSocket_eq, hbranch.1]
          exact hbranch.2
  | error =>
      rw [hhappening] at hbranch
      exact hbranch.elim
  | written =>
      rw [hhappening] at hbranch
      exact hbranch.elim

/-- **The reply is sent.** -/
lemma decided_write (hevents : up.events = upollWriteT) (hup : up.usock = p)
    (hlist : w.loop.transfer.mDestroyList.count p = 0) (hfreed : w.freed = [])
    (hallocated : w.allocated = up.pointer.toList) :
    Decided k p (w.loop.happening io up) up.pointer (w.onEvent k h io up) := by
  obtain ⟨hbranch, hhappening⟩ := k.branch_of_write w.loop io hevents
  rw [hhappening]
  refine .inl ⟨trivial, .gone (gone_onEvent hup hlist ?_ ?_)⟩
  · rw [hbranch]
    rfl
  · rw [onEvent, hbranch, hfreed, hallocated]
    exact (List.append_nil _).symm

/-- **An event of the connection.** -/
lemma Inv.decided (hw : Inv p w) (k : Monitor) (h : Handlers σ) (io : Io) {poll : Poll}
    (hup : up.usock = p) (hfound : up ∈ w.loop.found poll up.usock) :
    Decided k p (w.loop.happening io up) up.pointer (w.onEvent k h io up) := by
  rw [ServiceLoop.found, hup] at hfound
  cases hw.phase with
  | reading record destroyed allocated freed past =>
      rw [record] at hfound
      have hhas := Watched.has_readEvent p
      rcases cases_of_available hfound with ⟨-, rfl⟩ | ⟨hsound, ⟨hwrite, -⟩ | ⟨-, rfl⟩⟩
      · refine decided_error rfl rfl ?_ destroyed freed allocated
        rw [record]
        exact Option.some_ne_none _
      · exact absurd hwrite (by rw [hhas.2.1]; exact Bool.false_ne_true)
      · refine decided_read rfl rfl hw.isSome hsound record destroyed allocated freed ?_
        refine past.resolve_right fun hfail => ?_
        exact Bool.false_ne_true (hsound.symm.trans hfail.1)
  | replying q record destroyed allocated freed past =>
      rw [record] at hfound
      have hhas :=
        Upoll.has_of_write (rfl : (⟨p, upollWriteT, some q⟩ : Upoll).events = upollWriteT)
      rcases cases_of_available hfound with ⟨-, rfl⟩ | ⟨-, ⟨-, rfl⟩ | ⟨hread, -⟩⟩
      · refine decided_error rfl rfl ?_ destroyed freed allocated
        rw [record]
        exact Option.some_ne_none _
      · exact decided_write rfl rfl destroyed freed allocated
      · exact absurd hread (by rw [hhas.1]; exact Bool.false_ne_true)
  | gone hgone =>
      rw [hgone.record] at hfound
      cases hfound

end Event

/-! ### Iterations -/

/-- Every registered connection waits for one kind of event. -/
def Asks (s : ServiceLoop σ) : Prop :=
  ∀ (p : Ptr) (up : Upoll), s.mTcpMap[p]? = some up →
    up.events = upollReadT ∨ up.events = upollWriteT

/-- A step keeps this: a connection is accepted for reading, and only an answer to it changes
what it waits for. -/
lemma Asks.step {k : Monitor} {h : Handlers σ} {start : ServiceLoop σ} {l : LoopStep σ}
    (hasks : Asks w.loop) (hstep : (machine k h p start).step l w = some w') : Asks w'.loop := by
  -- the event of one connection does not change the records of the others
  have hevent : ∀ io up, Asks (k.service.onSocket h io up w.loop) := by
    intro io up q it hit
    by_cases hq : q = up.usock
    · subst hq
      rw [k.onSocket_eq, Branch.record_run] at hit
      cases hbranch : k.branch io up w.loop <;> rw [hbranch] at hit <;>
        first | exact hasks _ it hit | cases hit
      exact .inr rfl
    · rw [(k.service.serves_onSocket h io up w.loop).others q hq] at hit
      exact hasks q it hit
  cases l with
  | walk io =>
      obtain rfl := Option.some.inj hstep
      exact hasks
  | select polls =>
      obtain rfl := Option.some.inj hstep
      exact hasks
  | others tables =>
      obtain rfl := Option.some.inj hstep
      exact hasks
  | event poll io up =>
      simp only [machine] at hstep
      split_ifs at hstep <;> obtain rfl := Option.some.inj hstep <;> exact hevent io up
  | accept =>
      obtain rfl := Option.some.inj hstep
      intro q it hit
      cases hlist : w.loop.transfer.mTcpAcceptList with
      | nil =>
          rw [withLoop, ServiceLoop.acceptConnection_of_nil hlist] at hit
          exact hasks q it hit
      | cons sc rest =>
          obtain ⟨t, -, -, heq⟩ := ServiceLoop.acceptConnection_of_cons hlist
          rw [withLoop, heq, Std.TreeMap.getElem?_insert] at hit
          split_ifs at hit
          · obtain rfl := Option.some.inj hit
            exact .inl rfl
          · exact hasks q it hit

/-- A poll finds at most one event for such a record. -/
lemma pairwise_available {t : ETransfer} {poll : Poll} {it : Upoll}
    (hit : it.events = upollReadT ∨ it.events = upollWriteT) :
    (t.available poll it).Pairwise fun up up' => up.usock ≠ up'.usock := by
  rw [ETransfer.available]
  rcases hit with hit | hit
  · simp only [(Upoll.has_of_read hit).2.1, Bool.false_and, Bool.false_eq_true, if_false,
      List.nil_append]
    split_ifs <;> simp
  · simp only [(Upoll.has_of_write hit).1, Bool.false_and, Bool.false_eq_true, if_false,
      List.append_nil]
    split_ifs <;> simp

/-- Events of different connections, one after the other: what the poll found for a connection
is still there when its turn comes. -/
lemma run_events (k : Monitor) (h : Handlers σ) (p : Ptr) (start : ServiceLoop σ) (io : Io)
    {poll : Poll} {dst : List Upoll} (hdistinct : dst.Pairwise fun up up' => up.usock ≠ up'.usock)
    (hfound : ∀ up ∈ dst, up ∈ w.loop.found poll up.usock) :
    ∃ w', (machine k h p start).run (dst.map (.event poll io)) w = some w' ∧
      w'.loop = dst.foldl (fun s up => k.service.onSocket h io up s) w.loop := by
  induction dst generalizing w with
  | nil => exact ⟨w, rfl, rfl⟩
  | cons up dst ih =>
      obtain ⟨hhead, htail⟩ := List.pairwise_cons.mp hdistinct
      -- the step of `up` runs the monitor on it, also where `up` is not the followed one
      obtain ⟨w₁, hstep, hloop⟩ : ∃ w₁, (machine k h p start).step (.event poll io up) w =
          some w₁ ∧ w₁.loop = k.service.onSocket h io up w.loop := by
        simp only [machine, if_pos (hfound up List.mem_cons_self)]
        split_ifs
        · exact ⟨_, rfl, rfl⟩
        · exact ⟨_, rfl, rfl⟩
      have hserved := k.service.serves_onSocket h io up w.loop
      -- and leaves the rest of the events as they were found
      have hfound' : ∀ up' ∈ dst, up' ∈ w₁.loop.found poll up'.usock := by
        intro up' hup'
        have hne : up'.usock ∉ ({up.usock} : Set Ptr) := fun hc => hhead up' hup' hc.symm
        have hold := hfound up' (List.mem_cons_of_mem up hup')
        rw [ServiceLoop.found] at hold
        rw [hloop, ServiceLoop.found, hserved.others _ hne]
        cases hrecord : w.loop.mTcpMap[up'.usock]? with
        | none =>
            rw [hrecord] at hold
            cases hold
        | some it =>
            rw [hrecord] at hold
            have husock := ServiceLoop.usock_of_mem_available hold
            show up' ∈ ETransfer.available _ poll it
            rwa [hserved.touches.available (husock ▸ hne)]
      obtain ⟨w', hrun, hloop'⟩ := ih htail hfound'
      refine ⟨w', ?_, by rw [hloop', hloop, List.foldl_cons]⟩
      rw [List.map_cons, Machine.run, hstep]
      exact hrun

/-- The events of an iteration are those of different connections. -/
lemma pairwise_connEvents {s : ServiceLoop σ} (hs : s.Attended) (hasks : Asks s) (walks : Bool)
    (io : Io) (n : ℕ) :
    (s.connEvents walks io n).Pairwise fun up up' => up.usock ≠ up'.usock := by
  have hrecord : ∀ e ∈ s.mTcpMap.toList, s.mTcpMap[e.1]? = some e.2 := fun e he =>
    Std.TreeMap.mem_toList_iff_getElem?_eq_some.mp he
  rw [ServiceLoop.connEvents, List.pairwise_flatMap, List.pairwise_map]
  constructor
  · intro it hit
    obtain ⟨e, he, rfl⟩ := List.mem_map.mp hit
    exact pairwise_available (hasks e.1 e.2 (hrecord e he))
  · refine Std.TreeMap.distinct_keys_toList.imp_of_mem fun {e e'} he he' hne up hup up' hup' => ?_
    rw [ServiceLoop.usock_of_mem_available hup, ServiceLoop.usock_of_mem_available hup',
      (hs.registered e.1 e.2 (hrecord e he)).1, (hs.registered e'.1 e'.2 (hrecord e' he')).1]
    exact fun hc => hne (Std.LawfulEqCmp.compare_eq_iff_eq.mpr hc)

/-- They are what the poll finds for the registered connections. -/
lemma found_connEvents {s : ServiceLoop σ} (hs : s.Sound) {walks : Bool} {io : Io}
    (hfresh : s.transfer.Fresh io.toWalkIo) {n : ℕ} {up : Upoll}
    (hup : up ∈ s.connEvents walks io n) :
    up ∈ (s.selected walks io).found (io.polls n) up.usock := by
  obtain ⟨it, hit, -, -, hmem⟩ := ServiceLoop.mem_connEvents hs hup
  have htouch := (hs.selected walks hfresh).1.touches
  rw [ServiceLoop.found]
  show up ∈ (s.mTcpMap[up.usock]?).elim [] _
  rw [hit]
  show up ∈ ETransfer.available _ (io.polls n) it
  rwa [htouch.available (Set.notMem_empty _)]

/-- **An iteration of a monitor** is a run of these steps: the walk, where the monitor has one,
the poll, an event for each connection that it found, and the accept list. -/
theorem iteration_run (k : Monitor) (h : Handlers σ) (p : Ptr) (start : ServiceLoop σ)
    (hs : w.loop.Attended) (hasks : Asks w.loop) {io : Io}
    (hfresh : w.loop.transfer.Fresh io.toWalkIo) :
    ∃ ls w', (machine k h p start).run ls w = some w' ∧
      w'.loop = k.service.iteration h io w.loop := by
  obtain ⟨n, heq⟩ := ServiceLoop.iterate_eq (k.service.serves_onSocket h) hs.toSound
    k.service.walks hfresh
  have hiteration : k.service.iteration h io w.loop =
      ServiceLoop.iterate k.service.walks (k.service.onSocket h) io w.loop := by
    cases k <;> rfl
  -- `walk_through`, where the loop calls it
  obtain ⟨walk, hwalk⟩ : ∃ walk, (machine k h p start).run walk w =
      some (w.withLoop { w.loop with transfer := w.loop.walked k.service.walks io }) := by
    cases k with
    | jobMonitorEtransfer => exact ⟨[], rfl⟩
    | hostMonitorTransfer2 => exact ⟨[.walk io.toWalkIo], rfl⟩
  have hsrc : ServiceLoop.src { w.loop with transfer := w.loop.walked k.service.walks io } =
      w.loop.src := by
    simp only [ServiceLoop.src, ServiceLoop.lsPoll, (hs.toSound.walk k.service.walks hfresh).2]
  have hselect : (machine k h p start).step (.select io.polls)
      (w.withLoop { w.loop with transfer := w.loop.walked k.service.walks io }) =
        some (w.withLoop (w.loop.selected k.service.walks io)) := by
    show some (w.withLoop _) = _
    rw [withLoop, withLoop, hsrc]
    rfl
  obtain ⟨w₁, hevents, hloop⟩ := run_events k h p start io
    (w := w.withLoop (w.loop.selected k.service.walks io))
    (pairwise_connEvents hs hasks k.service.walks io n)
    fun up hup => found_connEvents hs.toSound hfresh hup
  refine ⟨walk ++ .select io.polls ::
    ((w.loop.connEvents k.service.walks io n).map (.event (io.polls n) io) ++ [.accept]),
    w₁.withLoop w₁.loop.acceptConnection, ?_, ?_⟩
  · rw [Machine.run_append, hwalk, Option.bind_some, Machine.run, hselect, Option.bind_some,
      Machine.run_append, hevents]
    rfl
  · rw [hiteration, heq]
    exact congrArg ServiceLoop.acceptConnection hloop

/-! ### Whole runs -/

/-- An event that is not one of the connection, or one that the monitor handles. -/
def HandledStep (k : Monitor) (p : Ptr) (w : Followed σ) : LoopStep σ → Prop
  | .event _ io up => up.usock = p → k.Handles (w.loop.happening io up) up.pointer
  | _ => True

/-- **One step** keeps the invariant and ends cleanly exactly when it is handled. After a step
that is not handled there is nothing more to say: the connection is left behind. -/
lemma Inv.step {k : Monitor} {h : Handlers σ} {start : ServiceLoop σ} (hw : Inv p w)
    {l : LoopStep σ} (hfresh : l.Fresh w.loop) (hstep : (machine k h p start).step l w = some w') :
    (EndsCleanly p w' ↔ HandledStep k p w l) ∧ (HandledStep k p w l → Inv p w') := by
  -- the steps in which nothing happens on the connection
  have hframe : ∀ {loop : ServiceLoop σ}, Leaves p w.loop loop → w' = w.withLoop loop →
      HandledStep k p w l → (EndsCleanly p w' ↔ HandledStep k p w l) ∧
        (HandledStep k p w l → Inv p w') := by
    rintro loop hleaves rfl hhandled
    have hinv := hw.frame hleaves
    exact ⟨iff_of_true hinv.phase.endsCleanly hhandled, fun _ => hinv⟩
  cases l with
  | walk io => exact hframe (leaves_walk hfresh hw.isSome) (Option.some.inj hstep).symm trivial
  | select polls =>
      refine hframe (.of_served (S := ∅) ?_ (Set.notMem_empty p) ?_)
        (Option.some.inj hstep).symm trivial
      · exact .of_touches (ETransfer.select_spec ..).1 rfl
      · exact congrArg (List.count p) (ETransfer.mDestroyList_select ..)
  | accept => exact hframe (leaves_accept hw.accepts) (Option.some.inj hstep).symm trivial
  | others tables =>
      refine hframe ?_ (Option.some.inj hstep).symm trivial
      exact ⟨rfl, rfl, id, id, id⟩
  | event poll io up =>
      simp only [machine] at hstep
      split_ifs at hstep with hfound hup
      · obtain rfl := Option.some.inj hstep
        have hgoal : HandledStep k p w (.event poll io up) ↔
            k.Handles (w.loop.happening io up) up.pointer := ⟨fun hc => hc hup, fun hc _ => hc⟩
        rw [hgoal]
        -- an event of the followed connection: the one place where the handling counts
        rcases hw.decided k h io hup hfound with
          ⟨hhandles, hphase⟩ | ⟨hnot, hunclean⟩
        · exact ⟨iff_of_true hphase.endsCleanly hhandles, fun _ => hw.of_phase hphase⟩
        · exact ⟨iff_of_false hunclean hnot, fun hc => absurd hc hnot⟩
      · refine hframe (.of_served (S := {up.usock}) ?_ (fun hc => hup hc.symm) ?_)
          (Option.some.inj hstep).symm (fun hc => absurd hc hup)
        · exact k.service.serves_onSocket h io up w.loop
        · rw [k.onSocket_eq, Branch.mDestroyList_run, List.count_append]
          have hnone : ((k.branch io up w.loop).destroyed up).count p = 0 := by
            cases k.branch io up w.loop <;> simp [Branch.destroyed, hup]
          rw [hnone, Nat.add_zero]

lemma Connected.inv {start : ServiceLoop σ} (hstart : Connected p start) :
    Inv p ⟨start, [], [], []⟩ :=
  ⟨hstart.isSome, hstart.accepts, .reading hstart.record
    (List.count_eq_zero_of_not_mem hstart.destroyed) rfl rfl
    (.inl fun _ hx => absurd hx List.not_mem_nil)⟩

/-- Every state that a run of a monitor reaches leaves the connection cleanly ended, if it
has ended. -/
def CleanRun (k : Monitor) (h : Handlers σ) (p : Ptr) (start : ServiceLoop σ)
    (ls : List (LoopStep σ)) : Prop :=
  Machine.GuardedRun (machine k h p start)
    (fun w l => ∀ w', (machine k h p start).step l w = some w' → EndsCleanly p w') ls
    ⟨start, [], [], []⟩

/-- In a run the kernel gives unused descriptors, and the allocator unused memory. -/
def FreshRun (k : Monitor) (h : Handlers σ) (p : Ptr) (start : ServiceLoop σ)
    (ls : List (LoopStep σ)) : Prop :=
  Machine.GuardedRun (machine k h p start) (fun w l => l.Fresh w.loop) ls ⟨start, [], [], []⟩

/-- In a run the monitor handles every event of the connection. -/
def HandledRun (k : Monitor) (h : Handlers σ) (p : Ptr) (start : ServiceLoop σ)
    (ls : List (LoopStep σ)) : Prop :=
  Machine.GuardedRun (machine k h p start) (HandledStep k p) ls ⟨start, [], [], []⟩

/-- **Connections end cleanly** in a run exactly when it has no event of the connection that
the monitor does not handle. -/
theorem ends_cleanly_iff (k : Monitor) (h : Handlers σ) {start : ServiceLoop σ}
    (hstart : Connected p start) {ls : List (LoopStep σ)} (hfresh : FreshRun k h p start ls) :
    CleanRun k h p start ls ↔ HandledRun k h p start ls := by
  have hboth : Machine.GuardedRun (machine k h p start)
        (fun w l => l.Fresh w.loop ∧
          ∀ w', (machine k h p start).step l w = some w' → EndsCleanly p w') ls
        ⟨start, [], [], []⟩ ↔
      Machine.GuardedRun (machine k h p start)
        (fun w l => l.Fresh w.loop ∧ HandledStep k p w l) ls ⟨start, [], [], []⟩ := by
    refine Machine.guardedRun_congr_of_invariant (I := Inv p) ?_ ?_ hstart.inv ls
    · intro w l w' hw hstep
      refine and_congr_right fun hl => ?_
      rw [← (hw.step hl hstep).1]
      refine ⟨fun hall => hall w' hstep, fun hclean w'' hstep' => ?_⟩
      rwa [← Option.some.inj (hstep.symm.trans hstep')]
    · exact fun w l w' hw hg hstep => (hw.step hg.1 hstep).2 hg.2
  rw [Machine.guardedRun_and, Machine.guardedRun_and] at hboth
  exact ⟨fun hclean => (hboth.mp ⟨hfresh, hclean⟩).2, fun hall => (hboth.mpr ⟨hfresh, hall⟩).2⟩

/-- **Every connection ends cleanly**, whatever happens on it. -/
def ConnectionsEndCleanly (k : Monitor) : Prop :=
  ∀ (σ : Type) (h : Handlers σ) (p : Ptr) (start : ServiceLoop σ) (ls : List (LoopStep σ)),
    Connected p start → FreshRun k h p start ls → CleanRun k h p start ls

/-! ### A peer that closes -/

/-- What the kernel answers on the connection. -/
def answerIo (answer : RecvAnswer) : Io where
  ready := none
  accept := none
  addr := 300
  reason := 0
  polls := fun _ => ⟨fun _ => true, fun _ => false⟩
  recv := fun _ => answer
  send := fun _ => .sent msgBuffSize
  malloc := fun p => (1000 + p, zeroBuffer.1)

/-- An event in which the connection is read. -/
def readStep (answer : RecvAnswer) : LoopStep Unit :=
  .event ⟨fun _ => true, fun _ => false⟩ (answerIo answer) (Watched.readEvent 200)

lemma connected_oneConnection : Connected 200 (oneConnection []) where
  record := (registered_oneConnection []).record
  isSome := ((registered_oneConnection []).attended.registered 200 _
    (registered_oneConnection []).record).2.2
  accepts := by
    rw [(registered_oneConnection []).attended.accepts]
    exact List.not_mem_nil
  destroyed := by
    show 200 ∉ oneIteration.transfer.mDestroyList
    decide +kernel

/-- The connection is read. -/
lemma step_readStep (k : Monitor) (answer : RecvAnswer) :
    (machine k noTables 200 (oneConnection [])).step (readStep answer)
        ⟨oneConnection [], [], [], []⟩ =
      some (onEvent k noTables (answerIo answer) (Watched.readEvent 200)
        ⟨oneConnection [], [], [], []⟩) := by
  have hfound : Watched.readEvent 200 ∈
      (oneConnection []).found ⟨fun _ => true, fun _ => false⟩ (Watched.readEvent 200).usock := by
    show Watched.readEvent 200 ∈ (oneIteration.mTcpMap[200]?).elim []
      (oneIteration.transfer.available ⟨fun _ => true, fun _ => false⟩)
    decide +kernel
  simp only [machine, readStep]
  rw [if_pos hfound]
  exact if_pos rfl

lemma freshRun_readStep (k : Monitor) (answer : RecvAnswer) :
    FreshRun k noTables 200 (oneConnection []) [readStep answer] :=
  fun _ _ => ⟨trivial, trivial⟩

/-- The peer resets the connection: a read fails, and the next poll finds the error status. -/
def resetRun : List (LoopStep Unit) :=
  [readStep (.error 104), .event ⟨fun _ => true, fun _ => false⟩ (answerIo (.error 104))
    ⟨200, upollErrorT, none⟩]

/-- `host_monitor_transfer_2` handles both events, and the connection is gone. -/
theorem ends_cleanly_iff_reset : ∃ w,
    (machine .hostMonitorTransfer2 noTables 200 (oneConnection [])).run resetRun
        ⟨oneConnection [], [], [], []⟩ = some w ∧
      w.past = [.failed, .error] ∧ Gone 200 w := by
  have hrun : ((machine .hostMonitorTransfer2 noTables 200 (oneConnection [])).run resetRun
      ⟨oneConnection [], [], [], []⟩).any (fun w => decide (w.past = [.failed, .error]))
        = true := by decide +kernel
  obtain ⟨w, hw, hp⟩ := (Option.any_eq_true _ _).mp hrun
  have hpast := of_decide_eq_true hp
  have hfresh : FreshRun .hostMonitorTransfer2 noTables 200 (oneConnection []) resetRun :=
    fun _ _ => ⟨trivial, fun _ _ => ⟨trivial, trivial⟩⟩
  have hhandled : HandledRun .hostMonitorTransfer2 noTables 200 (oneConnection []) resetRun := by
    refine fun w₁ _ => ⟨fun _ => ?_, fun w₂ _ => ⟨fun _ => ?_, trivial⟩⟩
    · have hhas := Watched.has_readEvent 200
      rw [ServiceLoop.happening, hhas.1, hhas.2.1]
      trivial
    · rw [((Monitor.hostMonitorTransfer2).branch_of_error w₁.loop _ rfl).2]
      exact ⟨rfl, rfl⟩
  have hclean := (ends_cleanly_iff .hostMonitorTransfer2 noTables connected_oneConnection
    hfresh).mpr hhandled
  -- the guard of the clean run speaks of the state behind its last step
  have hend : EndsCleanly 200 w := Machine.GuardedRun.holds (P := EndsCleanly 200)
    (fun s l s' hg hs => hg s' hs) hclean (fun hended => by simp [Ended] at hended) hw
  refine ⟨w, hw, hpast, hend ?_⟩
  rw [hpast]
  exact .inr (.inl (List.mem_cons_of_mem _ List.mem_cons_self))

/-- The peer closes before it has sent a request: neither loop notices. -/
theorem closed_connection_stays : ¬∃ k : Monitor, ConnectionsEndCleanly k := by
  rintro ⟨k, hall⟩
  have hrun := hall Unit noTables 200 (oneConnection []) [readStep (.data [])]
    connected_oneConnection (freshRun_readStep k _)
  have hstep := step_readStep k (.data [])
  have hclean := (hrun _ hstep).1 _ hstep
  have hhandled := (connected_oneConnection.inv.step (l := readStep (.data [])) trivial hstep).1.mp
    hclean
  have hhas := Watched.has_readEvent 200
  have hclosed : (oneConnection []).happening (answerIo (.data [])) (Watched.readEvent 200) =
      .closed := by
    rw [ServiceLoop.happening, hhas.1, hhas.2.1]
    rfl
  have hfalse := hhandled rfl
  rw [hclosed] at hfalse
  exact hfalse

end Followed

end Epbs
