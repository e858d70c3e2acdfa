/-
How messages are written to a connection.

* `SendRound`: what a round of a client's loop finds;
* `clientSubmitSingleJob`, `clientQueryJobStatus`, `clientCancelJob`: the loops in which
  the clients write; the first two write the whole message again after a short write, the
  third does not write again;
* `ClientWrite`, `ReplyWrite`, `Write`: the writing of a request by its client, and of a
  reply by `job_monitor_etransfer`, in which no call fails;
* `resendLoop_spec`: what is on the connection when a loop that writes again has ended;
* `message_written_iff`: it is the message exactly when the first call takes it whole.
-/
import Epbs.Transfer.Segments

namespace Epbs

/-! ### The clients -/

/-- What a round of a client's loop finds: nothing, an error, or room to write, with the
answer of `::send`. -/
inductive SendRound where
  | idle
  | error
  | writable (answer : SendAnswer)

/-- Where a client stands after some rounds. -/
inductive WriteState where
  | writing | reading | closing
  deriving DecidableEq, Repr

/-- A loop that writes `send_buffer` until one call takes all of it. -/
def resendLoop (p : Ptr) (sendBuffer : Bytes) : List SendRound → ETransfer → ETransfer × WriteState
  | [], t => (t, .writing)
  | .idle :: rounds, t => resendLoop p sendBuffer rounds t
  | .error :: _, t => (t, .closing)
  | .writable answer :: rounds, t =>
      let (t, sendSize) := t.send p sendBuffer answer
      if sendSize ≤ 0 then (t, .closing)
      else if sendSize = sendBuffer.length then (t, .reading)
      else resendLoop p sendBuffer rounds t

/-- The write loop of `client_submit_single_job`. -/
def clientSubmitSingleJob (p : Ptr) (sendBuffer : Bytes) (rounds : List SendRound)
    (t : ETransfer) : ETransfer × WriteState :=
  resendLoop p sendBuffer rounds t

/-- The write loop of `client_query_job_status`. -/
def clientQueryJobStatus (p : Ptr) (sendBuffer : Bytes) (rounds : List SendRound)
    (t : ETransfer) : ETransfer × WriteState :=
  resendLoop p sendBuffer rounds t

/-- The loop of `client_cancel_job`, which ends after one call, whatever it took. -/
def clientCancelJob (p : Ptr) (sendBuffer : Bytes) : List SendRound → ETransfer →
    ETransfer × WriteState
  | [], t => (t, .writing)
  | .idle :: rounds, t => clientCancelJob p sendBuffer rounds t
  | .error :: _, t => (t, .closing)
  | .writable answer :: _, t => ((t.send p sendBuffer answer).1, .closing)

/-- The loop that writes a request. -/
def ClientRequest.write (req : ClientRequest) (p : Ptr) :
    List SendRound → ETransfer → ETransfer × WriteState :=
  match req with
  | .submit .. => clientSubmitSingleJob p req.encode
  | .query .. => clientQueryJobStatus p req.encode
  | .cancel .. => clientCancelJob p req.encode

/-- A round in which nothing fails. -/
def SendRound.Fine : SendRound → Prop
  | .idle => True
  | .error => False
  | .writable (.sent n) => 0 < n
  | .writable (.error _) => False

/-- How much the first call of `::send` took. -/
def firstTaken : List SendRound → Option ℕ
  | .idle :: rounds => firstTaken rounds
  | .writable (.sent n) :: _ => some n
  | _ => none

/-! ### Writing without a failure -/

/-- A client writes its request on a connection that is not in error, and no round
fails. -/
structure ClientWrite where
  req : ClientRequest
  transfer : ETransfer
  sock : Ptr
  rounds : List SendRound
  sound : (transfer.sock sock).isError = false
  fine : ∀ r ∈ rounds, r.Fine

/-- `job_monitor_etransfer` writes a reply on a connection that is not in error, and the
call of `::send` takes some of it. -/
structure ReplyWrite where
  σ : Type
  handlers : Handlers σ
  loop : ServiceLoop σ
  io : Io
  up : Upoll
  reply : RecvBuffer
  taken : ℕ
  events : up.events = upollWriteT
  buffer : up.pointer.bind loop.buffers = some reply.1
  sound : (loop.transfer.sock up.usock).isError = false
  answer : io.send (loop.transfer.sock up.usock).mSock = .sent taken
  pos : 0 < taken

/-- The writing of a message: by a client, which tries again until one call takes all of it, or by
the server, which makes one call. -/
inductive Write where
  | client (w : ClientWrite)
  | reply (w : ReplyWrite)

namespace Write

/-- The message. -/
def message : Write → Bytes
  | client w => w.req.encode
  | reply w => w.reply.1

/-- The bytes on the connection before. -/
def before : Write → Bytes
  | client w => w.transfer.sent (w.transfer.sock w.sock).mSock
  | reply w => w.loop.transfer.sent (w.loop.transfer.sock w.up.usock).mSock

/-- The bytes on the connection once the client reads on or closes it, and once the monitor
has destroyed the socket. -/
def after : Write → Option Bytes
  | client w =>
      let (t, state) := w.req.write w.sock w.rounds w.transfer
      if state = .writing then none else some (t.sent (w.transfer.sock w.sock).mSock)
  | reply w =>
      some ((ServiceLoop.jobMonitorSocket w.handlers w.io w.up w.loop).transfer.sent
        (w.loop.transfer.sock w.up.usock).mSock)

/-- How much the first call of `::send` took. -/
def first : Write → Option ℕ
  | client w => firstTaken w.rounds
  | reply w => some w.taken

end Write

/-! ### What is on the connection -/

section Loops

variable {t : ETransfer} {p : Ptr} {buf : Bytes}

variable (buf) in
/-- A call of `::send` that takes some bytes. -/
lemma send_sent (h : (t.sock p).isError = false) (n : ℕ) :
    (t.send p buf (.sent n)).1.sent (t.sock p).mSock = t.sent (t.sock p).mSock ++ buf.take n ∧
      (t.send p buf (.sent n)).1.sock p = t.sock p ∧
      (t.send p buf (.sent n)).2 = (buf.take n).length := by
  rw [ETransfer.send.eq_def, h]
  exact ⟨Function.update_self .., rfl, rfl⟩

/-- **A loop that writes again**: what short writes took is there before the message. -/
lemma resendLoop_spec (hbuf : buf ≠ []) {rounds : List SendRound}
    (h : (t.sock p).isError = false) (hfine : ∀ r ∈ rounds, r.Fine)
    (hend : (resendLoop p buf rounds t).2 ≠ .writing) :
    ∃ short, (resendLoop p buf rounds t).1.sent (t.sock p).mSock =
        t.sent (t.sock p).mSock ++ (short ++ buf) ∧
      (short = [] ↔ ∃ n, firstTaken rounds = some n ∧ buf.length ≤ n) := by
  induction rounds generalizing t with
  | nil => exact absurd rfl hend
  | cons r rounds ih =>
      obtain ⟨hr, hrest⟩ := List.forall_mem_cons.mp hfine
      cases r with
      | idle => exact ih h hrest hend
      | error => exact hr.elim
      | writable answer =>
          cases answer with
          | error errno => exact hr.elim
          | sent n =>
              have hpos : 0 < n := hr
              have hlen := List.length_pos_iff.mpr hbuf
              obtain ⟨hsent, hsock, hsize⟩ := send_sent buf h n
              have htake : (buf.take n).length = min n buf.length := List.length_take
              simp only [resendLoop, hsize, htake] at hend ⊢
              rw [if_neg (by omega)] at hend ⊢
              by_cases hn : buf.length ≤ n
              · rw [if_pos (by omega)]
                refine ⟨[], ?_, iff_of_true rfl ⟨n, rfl, hn⟩⟩
                rw [hsent, List.take_of_length_le hn, List.nil_append]
              · rw [if_neg (by omega)] at hend ⊢
                -- the message begins again
                obtain ⟨short, hafter, -⟩ := ih (by rw [hsock]; exact h) hrest hend
                refine ⟨buf.take n ++ short, ?_, iff_of_false ?_ ?_⟩
                · set t' := (t.send p buf (.sent n)).1
                  calc (resendLoop p buf rounds t').1.sent (t.sock p).mSock =
                        t'.sent (t.sock p).mSock ++ (short ++ buf) := by rw [← hsock, hafter]
                    _ = t.sent (t.sock p).mSock ++ buf.take n ++ (short ++ buf) := by rw [hsent]
                    _ = t.sent (t.sock p).mSock ++ (buf.take n ++ short ++ buf) := by
                        simp only [List.append_assoc]
                · intro hnil
                  have hzero := congrArg List.length (List.append_eq_nil_iff.mp hnil).1
                  rw [htake, List.length_nil] at hzero
                  omega
                · rintro ⟨m, hm, hle⟩
                  obtain rfl := Option.some.inj hm
                  exact hn hle

/-- **One call**, whatever it takes. -/
lemma clientCancelJob_spec {rounds : List SendRound}
    (h : (t.sock p).isError = false) (hfine : ∀ r ∈ rounds, r.Fine)
    (hend : (clientCancelJob p buf rounds t).2 ≠ .writing) :
    ∃ n, firstTaken rounds = some n ∧ (clientCancelJob p buf rounds t).1.sent (t.sock p).mSock =
      t.sent (t.sock p).mSock ++ buf.take n := by
  induction rounds with
  | nil => exact absurd rfl hend
  | cons r rounds ih =>
      obtain ⟨hr, hrest⟩ := List.forall_mem_cons.mp hfine
      cases r with
      | idle => exact ih hrest hend
      | error => exact hr.elim
      | writable answer =>
          cases answer with
          | error errno => exact hr.elim
          | sent n => exact ⟨n, rfl, (send_sent _ h n).1⟩

/-- A part from the start of the message is the message if it is as long. -/
lemma append_take_eq_iff {before : Bytes} {n : ℕ} :
    before ++ buf.take n = before ++ buf ↔ buf.length ≤ n := by
  rw [List.append_cancel_left_eq]
  exact List.take_eq_self_iff buf

end Loops

/-- The reply that is sent. -/
lemma ReplyWrite.sent (w : ReplyWrite) :
    (ServiceLoop.jobMonitorSocket w.handlers w.io w.up w.loop).transfer.sent
        (w.loop.transfer.sock w.up.usock).mSock =
      w.loop.transfer.sent (w.loop.transfer.sock w.up.usock).mSock ++
        w.reply.1.take w.taken := by
  have hwrite := (Upoll.has_of_write w.events).2
  have hreply : w.reply.1.take msgBuffSize = w.reply.1 :=
    List.take_of_length_le w.reply.2.le
  rw [ServiceLoop.jobMonitorSocket, if_pos hwrite]
  simp only [ServiceLoop.sendReply, w.buffer, Option.getD_some, hreply, w.answer]
  exact (send_sent _ w.sound w.taken).1

/-- The part of a request that a client wrote. -/
lemma ClientWrite.written_iff (w : ClientWrite) {t : ETransfer} {state : WriteState}
    (hwrite : w.req.write w.sock w.rounds w.transfer = (t, state)) (hend : state ≠ .writing) :
    t.sent (w.transfer.sock w.sock).mSock =
        w.transfer.sent (w.transfer.sock w.sock).mSock ++ w.req.encode ↔
      ∃ n, firstTaken w.rounds = some n ∧ w.req.encode.length ≤ n := by
  have hne := encode_ne_nil w.req
  -- a loop that writes again
  have hresend : resendLoop w.sock w.req.encode w.rounds w.transfer = (t, state) →
      (t.sent (w.transfer.sock w.sock).mSock =
          w.transfer.sent (w.transfer.sock w.sock).mSock ++ w.req.encode ↔
        ∃ n, firstTaken w.rounds = some n ∧ w.req.encode.length ≤ n) := by
    intro hloop
    have hend' : (resendLoop w.sock w.req.encode w.rounds w.transfer).2 ≠ .writing := by
      rw [hloop]
      exact hend
    obtain ⟨short, hafter, hshort⟩ := resendLoop_spec hne w.sound w.fine hend'
    rw [hloop] at hafter
    rw [hafter, List.append_cancel_left_eq, ← hshort]
    exact List.append_left_eq_self
  cases hreq : w.req with
  | submit src dist commstr numReqNodes username =>
      rw [hreq] at hwrite hresend
      exact hresend hwrite
  | query src jobId unset =>
      rw [hreq] at hwrite hresend
      exact hresend hwrite
  | cancel src jobId unset =>
      rw [hreq] at hwrite
      have hloop : clientCancelJob w.sock (ClientRequest.cancel src jobId unset).encode w.rounds
          w.transfer = (t, state) := hwrite
      have hend' : (clientCancelJob w.sock (ClientRequest.cancel src jobId unset).encode w.rounds
          w.transfer).2 ≠ .writing := by
        rw [hloop]
        exact hend
      obtain ⟨n, hfirst, hafter⟩ := clientCancelJob_spec w.sound w.fine hend'
      rw [hloop] at hafter
      rw [hafter, append_take_eq_iff]
      refine ⟨fun hle => ⟨n, hfirst, hle⟩, ?_⟩
      rintro ⟨m, hm, hle⟩
      obtain rfl := Option.some.inj (hfirst.symm.trans hm)
      exact hle

/-- **Messages are written whole and once**, each byte in its place, exactly when the first
call of `::send` takes the whole message. -/
theorem message_written_iff {w : Write} {bytes : Bytes} (h : w.after = some bytes) :
    bytes = w.before ++ w.message ↔ ∃ n, w.first = some n ∧ w.message.length ≤ n := by
  cases w with
  | client w =>
      obtain ⟨t, state, hwrite⟩ : ∃ t state, w.req.write w.sock w.rounds w.transfer = (t, state) :=
        ⟨_, _, rfl⟩
      rw [Write.after, hwrite] at h
      simp only at h
      split_ifs at h with hend
      obtain rfl := Option.some.inj h
      exact w.written_iff hwrite hend
  | reply w =>
      obtain rfl := Option.some.inj h
      rw [w.sent]
      refine append_take_eq_iff.trans ⟨fun hle => ⟨w.taken, rfl, hle⟩, ?_⟩
      rintro ⟨n, hn, hle⟩
      obtain rfl := Option.some.inj hn
      exact hle

/-! ### A short write -/

/-- A connection without a byte on it. -/
def openTransfer : ETransfer where
  mTcpSock := 3
  mTcpListener := 100
  mTcpMap := ∅
  mTcpAcceptList := []
  mDestroyList := []
  sockets := fun p => if p = 200 then some ((UTcpSocket.new 0).bind 4) else none
  backlog := []
  conn := fun _ => none
  arrived := 0
  sent := fun _ => []

lemma sound_openTransfer : (openTransfer.sock 200).isError = false := by decide

/-- A QUERY is written in calls that take `takes`. -/
def queryWrite (takes : List SendRound) (hfine : ∀ r ∈ takes, r.Fine) : ClientWrite where
  req := queryZero
  transfer := openTransfer
  sock := 200
  rounds := takes
  sound := sound_openTransfer
  fine := hfine

lemma fine_late : ∀ r ∈ [SendRound.idle, .writable (.sent 24)], r.Fine := by
  simp [SendRound.Fine]

lemma fine_part : ∀ r ∈ [SendRound.writable (.sent 10), .idle, .writable (.sent 24)], r.Fine := by
  simp [SendRound.Fine]

lemma fine_short : ∀ r ∈ [SendRound.writable (.sent 1), .writable (.sent 24)], r.Fine := by
  simp [SendRound.Fine]

/-- A QUERY that is written whole once there is room for it; and one of which the first call
takes ten bytes, which are on the connection before the message. -/
theorem message_written_iff_query :
    (Write.client (queryWrite _ fine_late)).after =
        some ((Write.client (queryWrite _ fine_late)).before ++ queryZero.encode) ∧
      (Write.client (queryWrite _ fine_part)).after =
        some (queryZero.encode.take 10 ++ queryZero.encode) ∧
      queryZero.encode.take 10 ++ queryZero.encode ≠
        (Write.client (queryWrite _ fine_part)).before ++ queryZero.encode := by
  have hlate : (Write.client (queryWrite _ fine_late)).after = some queryZero.encode := by decide
  have hpart : (Write.client (queryWrite _ fine_part)).after =
      some (queryZero.encode.take 10 ++ queryZero.encode) := by decide
  refine ⟨?_, hpart, fun hsame => ?_⟩
  · rw [hlate]
    exact congrArg some ((message_written_iff hlate).mpr ⟨24, rfl, by decide⟩)
  · obtain ⟨n, hn, hle⟩ := (message_written_iff hpart).mp hsame
    obtain rfl : 10 = n := Option.some.inj hn
    exact absurd hle (by decide)

/-- After a call that takes one byte the QUERY is written from its start again. -/
theorem short_write_repeats : ¬∀ (w : Write) (bytes : Bytes), w.after = some bytes →
    bytes = w.before ++ w.message := by
  intro hall
  have hafter : (Write.client (queryWrite _ fine_short)).after =
      some (queryZero.encode.take 1 ++ queryZero.encode) := by decide
  have hsame := hall _ _ hafter
  revert hsame
  decide

end Epbs
