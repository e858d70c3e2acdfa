/-
`client_query_host_status_0` after it is connected: its request, the loop that reads the reply
of the server, and the table it prints.

* `ReadResult`, `HostReads`: what the rounds of the loop meet, and which sequences of answers
  the socket of one reply gives;
* `HostLoop`, `HostLoop.after`: the loop, which reads to the start of its buffer every time;
* `HostTableShown`: the buffer that a table is printed from;
* `ReassemblesOrFails`: the loop ends with the reply or with the connection, and only a whole
  reply is printed;
* `host_query_reassembles_iff`: the answers for which that is true.
-/
import Epbs.Server.Messages
import Epbs.Transfer.ETransfer

namespace Epbs

/-! ### The answers -/

/-- What a read of a ready socket returns: bytes of the reply, 0, or -1 with a reason. -/
inductive ReadResult where
  | data (k : ℕ)
  | closed
  | failed (errno : ℤ)

namespace ReadResult

/-- The bytes that are read. -/
def bytes : ReadResult → ℕ
  | .data k => k
  | .closed | .failed _ => 0

/-- The failures. -/
def failures : ReadResult → ℕ
  | .failed _ => 1
  | .data _ | .closed => 0

end ReadResult

/-- What the rounds of the loop meet; the socket is not ready where there is no result. -/
abbrev ReadAnswers := ℕ → Option ReadResult

namespace ReadAnswers

variable (answer : ReadAnswers)

/-- The bytes of the reply that were read before a round. -/
def delivered (n : ℕ) : ℕ := ∑ i ∈ Finset.range n, (answer i).elim 0 ReadResult.bytes

/-- The reads that failed before a round. -/
def failures (n : ℕ) : ℕ := ∑ i ∈ Finset.range n, (answer i).elim 0 ReadResult.failures

lemma delivered_succ (n : ℕ) :
    answer.delivered (n + 1) = answer.delivered n + (answer n).elim 0 ReadResult.bytes :=
  Finset.sum_range_succ _ n

lemma failures_succ (n : ℕ) :
    answer.failures (n + 1) = answer.failures n + (answer n).elim 0 ReadResult.failures :=
  Finset.sum_range_succ _ n

/-- A round before counts. -/
lemma le_delivered {m n : ℕ} (h : m < n) :
    (answer m).elim 0 ReadResult.bytes ≤ answer.delivered n :=
  Finset.single_le_sum (f := fun i => (answer i).elim 0 ReadResult.bytes)
    (fun _ _ => Nat.zero_le _) (Finset.mem_range.mpr h)

lemma le_failures {m n : ℕ} (h : m < n) :
    (answer m).elim 0 ReadResult.failures ≤ answer.failures n :=
  Finset.single_le_sum (f := fun i => (answer i).elim 0 ReadResult.failures)
    (fun _ _ => Nat.zero_le _) (Finset.mem_range.mpr h)

end ReadAnswers

/-- **The answers of a socket** on which a reply of `MSG_BUFF_SIZE` bytes arrives: no more than
is asked for, and no more than the reply; nothing behind the end of the connection; and only
failures once the socket is in error. -/
structure HostReads (maxRecvLen : ℕ) where
  answer : ReadAnswers
  data : ∀ n k, answer n = some (.data k) → 0 < k ∧ k ≤ min msgBuffSize maxRecvLen
  whole : ∀ n, answer.delivered n ≤ msgBuffSize
  closed : ∀ n m k, n < m → answer n = some .closed → answer m ≠ some (.data k)
  error : ∀ n m errno r, n < m → answer n = some (.failed errno) → errno ≠ eagain →
    answer m = some r → r.failures = 1 ∧ r.bytes = 0

/-! ### The loop -/

/-- The state of the loop: `remain_size`, `recv_buffer`, and the socket, with the bytes of the
reply that were read from it. -/
structure HostLoop where
  remainSize : ℤ
  recvBuffer : RecvBuffer
  taken : ℕ
  mStatus : SockStatus

namespace HostLoop

/-- The loop begins with what is in the block from `malloc`. -/
def init (stale : RecvBuffer) : HostLoop where
  remainSize := msgBuffSize
  recvBuffer := stale
  taken := 0
  mStatus := .connected

/-- `UTcpSocket::recv` to the start of the buffer, with its result. -/
def recv (reply : RecvBuffer) (r : ReadResult) (s : HostLoop) : HostLoop × ℤ :=
  if s.mStatus = .error then (s, -1)
  else
    match r with
    | .data k =>
        ({ s with
          recvBuffer := s.recvBuffer.recv ((reply.1.drop s.taken).take k)
          taken := s.taken + k }, k)
    | .closed => ({ s with mStatus := .closed }, 0)
    | .failed errno => ({ s with mStatus := if errno ≠ eagain then .error else s.mStatus }, -1)

/-- **A round of the loop**: every result is taken off `remain_size`. -/
def round (reply : RecvBuffer) : Option ReadResult → HostLoop → HostLoop
  | none, s => s
  | some r, s =>
      let (s', recvSize) := s.recv reply r
      { s' with remainSize := s.remainSize - recvSize }

/-- **The loop** after some rounds. -/
def after (reply stale : RecvBuffer) (answer : ReadAnswers) : ℕ → HostLoop
  | 0 => init stale
  | n + 1 =>
      let s := after reply stale answer n
      if 0 < s.remainSize then s.round reply (answer n) else s

end HostLoop

/-- The outcome of the request: none if the socket cannot take it, and otherwise the result of
`UTcpSocket::send`. -/
abbrev SendOutcome := Option {size : ℤ // -1 ≤ size ∧ size ≤ 24}

/-- `send_size`. -/
def SendOutcome.size (send : SendOutcome) : ℤ := send.elim 0 (·.1)

/-- **The buffer of a table.**  One is printed at once if the request was not sent, and when the
loop is left if it was. -/
inductive HostTableShown (send : SendOutcome) (answer : ReadAnswers) (reply stale : RecvBuffer) :
    RecvBuffer → Prop
  | unsent (h : send.size ≠ 24) : HostTableShown send answer reply stale stale
  | answered (h : send.size = 24) {n : ℕ}
      (hleft : (HostLoop.after reply stale answer n).remainSize ≤ 0) :
      HostTableShown send answer reply stale (HostLoop.after reply stale answer n).recvBuffer

/-- **The reply is reassembled, or the query fails**, whatever the reply is and whatever was in
the buffer: once all of the reply was read or the peer has closed the loop is left, and a
table is printed from the whole reply only.  On the way `remain_size` has to stay an `int`. -/
structure ReassemblesOrFails (send : SendOutcome) (answer : ReadAnswers) : Prop where
  fits : ∀ reply stale, send.size = 24 → ∀ n,
    (HostLoop.after reply stale answer n).remainSize < 2147483648
  leaves : ∀ reply stale, send.size = 24 →
    (∃ n, answer.delivered n = msgBuffSize ∨ answer n = some .closed) →
    ∃ n, (HostLoop.after reply stale answer n).remainSize ≤ 0
  shown : ∀ reply stale buffer, HostTableShown send answer reply stale buffer → buffer = reply

/-- The first read that returns anything returns all of the reply. -/
def ReadAnswers.AtOnce (answer : ReadAnswers) : Prop :=
  ∃ n, (∀ m < n, answer m = none) ∧ answer n = some (.data msgBuffSize)

/-- The reply is never read to its end, and the peer never closes; and the failures are fewer
than an `int` can count. -/
structure ReadAnswers.Pending (answer : ReadAnswers) : Prop where
  opened : ∀ n, answer n ≠ some .closed
  partly : ∀ n, answer.delivered n < msgBuffSize
  few : ∀ n, (msgBuffSize + answer.failures n - answer.delivered n : ℤ) < 2147483648

/-! ### The rounds -/

section Rounds

variable {maxRecvLen : ℕ} (reads : HostReads maxRecvLen) (reply stale : RecvBuffer) {n : ℕ}
  {s : HostLoop}

variable {stale} in
lemma HostLoop.init_remain_pos : 0 < (HostLoop.init stale).remainSize :=
  Int.natCast_pos.mpr (by decide)

/-- What the loop keeps count of while it runs. -/
structure HostLoop.Running (answer : ReadAnswers) (n : ℕ) (s : HostLoop) : Prop where
  remain : s.remainSize = msgBuffSize + answer.failures n - answer.delivered n
  taken : s.taken = answer.delivered n
  error : s.mStatus = .error → ∃ m < n, ∃ errno ≠ eagain, answer m = some (.failed errno)

open HostLoop

variable {reads} in
/-- **A round keeps count.** A failed `recv` answers -1, and the loop takes it off
`remain_size` as it takes the bytes off: the count goes up. -/
lemma HostLoop.Running.round (h : Running reads.answer n s) :
    Running reads.answer (n + 1) (s.round reply (reads.answer n)) := by
  obtain ⟨hremain, htaken, herror⟩ := h
  have hbefore : s.mStatus = .error →
      ∃ m < n + 1, ∃ errno ≠ eagain, reads.answer m = some (.failed errno) :=
    fun hs => (herror hs).imp fun m hm => ⟨hm.1.trans n.lt_succ_self, hm.2⟩
  have hfailures := reads.answer.failures_succ n
  have hdelivered := reads.answer.delivered_succ n
  cases hanswer : reads.answer n with
  | none =>
      rw [hanswer, Option.elim_none, add_zero] at hfailures hdelivered
      exact ⟨hfailures ▸ hdelivered ▸ hremain, hdelivered ▸ htaken, hbefore⟩
  | some r =>
      rw [hanswer, Option.elim_some] at hfailures hdelivered
      by_cases hs : s.mStatus = .error
      · -- a socket in error is not read, and its answer is a failure
        obtain ⟨m, hm, errno, hne, hfailed⟩ := herror hs
        obtain ⟨hone, hzero⟩ := reads.error m n errno r hm hfailed hne hanswer
        have hround : s.round reply (some r) = { s with remainSize := s.remainSize + 1 } := by
          simp only [HostLoop.round, HostLoop.recv, if_pos hs, sub_neg_eq_add]
        rw [hround]
        refine ⟨?_, ?_, hbefore⟩
        · simp only
          omega
        · simp only
          omega
      · cases r with
        | data k =>
            simp only [HostLoop.round, HostLoop.recv, if_neg hs]
            simp only [ReadResult.failures, ReadResult.bytes] at hfailures hdelivered
            exact ⟨by simp only; omega, by simp only; omega, hbefore⟩
        | closed =>
            simp only [HostLoop.round, HostLoop.recv, if_neg hs]
            simp only [ReadResult.failures, ReadResult.bytes] at hfailures hdelivered
            exact ⟨by simp only; omega, by simp only; omega, fun hc => by cases hc⟩
        | failed errno =>
            simp only [HostLoop.round, HostLoop.recv, if_neg hs]
            simp only [ReadResult.failures, ReadResult.bytes] at hfailures hdelivered
            refine ⟨by simp only; omega, by simp only; omega, fun hc => ?_⟩
            simp only at hc
            split_ifs at hc with hne
            · exact ⟨n, n.lt_succ_self, errno, hne, hanswer⟩
            · exact absurd hc hs

/-- **The loop runs, or was left** in the round that took the last of the reply. -/
lemma HostLoop.after_cases (n : ℕ) :
    (Running reads.answer n (after reply stale reads.answer n) ∧
        0 < (after reply stale reads.answer n).remainSize) ∨
      ∃ m < n, Running reads.answer m (after reply stale reads.answer m) ∧
        0 < (after reply stale reads.answer m).remainSize ∧
        after reply stale reads.answer n =
          (after reply stale reads.answer m).round reply (reads.answer m) ∧
        (after reply stale reads.answer n).remainSize ≤ 0 := by
  induction n with
  | zero => exact .inl ⟨⟨rfl, rfl, fun h => by cases h⟩, init_remain_pos⟩
  | succ n ih =>
      rw [after]
      rcases ih with ⟨hrunning, hpos⟩ | ⟨m, hm, hrunning, hpos, hround, hleft⟩
      · rw [if_pos hpos]
        rcases lt_or_ge 0 ((after reply stale reads.answer n).round reply
          (reads.answer n)).remainSize with hnext | hnext
        · exact .inl ⟨hrunning.round reply, hnext⟩
        · exact .inr ⟨n, n.lt_succ_self, hrunning, hpos, rfl, hnext⟩
      · rw [if_neg (not_lt.mpr hleft)]
        exact .inr ⟨m, hm.trans n.lt_succ_self, hrunning, hpos, hround, hleft⟩

/-- **The round in which the loop is left** reads the rest of the reply, after reads that did
not fail, to the start of the buffer. -/
lemma HostLoop.left_cases (hleft : (after reply stale reads.answer n).remainSize ≤ 0) :
    ∃ m k, reads.answer m = some (.data k) ∧ 0 < k ∧ reads.answer.delivered m + k = msgBuffSize ∧
      reads.answer.failures (m + 1) = 0 ∧
      (after reply stale reads.answer n).recvBuffer =
        (after reply stale reads.answer m).recvBuffer.recv
          ((reply.1.drop (reads.answer.delivered m)).take k) := by
  rcases after_cases reads reply stale n with ⟨-, hpos⟩ | ⟨m, -, hrunning, hpos, hround, -⟩
  · omega
  · have hnext := (hrunning.round reply).remain
    have hbefore := hrunning.remain
    have hwhole := reads.whole (m + 1)
    have hmono := reads.answer.failures_succ m
    have hdelivered := reads.answer.delivered_succ m
    rw [← hround] at hnext
    -- one failure before, and what is left to read would be more than what is left of the reply
    have hok : (after reply stale reads.answer m).mStatus ≠ .error := by
      intro hs
      obtain ⟨i, hi, errno, -, hfailed⟩ := hrunning.error hs
      have hcount := reads.answer.le_failures hi
      rw [hfailed, Option.elim_some, ReadResult.failures] at hcount
      omega
    cases hanswer : reads.answer m with
    | none =>
        rw [hanswer, Option.elim_none] at hdelivered
        omega
    | some r =>
        rw [hanswer, Option.elim_some] at hdelivered
        cases r with
        | closed =>
            rw [ReadResult.bytes] at hdelivered
            omega
        | failed errno =>
            rw [ReadResult.bytes] at hdelivered
            omega
        | data k =>
            rw [ReadResult.bytes] at hdelivered
            refine ⟨m, k, hanswer, (reads.data m k hanswer).1, by omega, by omega, ?_⟩
            rw [hround, hanswer]
            simp only [HostLoop.round, HostLoop.recv, if_neg hok, hrunning.taken]

/-- Before the reply was read to its end the loop runs. -/
lemma HostLoop.running_of_partly (hpartly : ∀ n, reads.answer.delivered n < msgBuffSize) (n : ℕ) :
    Running reads.answer n (after reply stale reads.answer n) ∧
      0 < (after reply stale reads.answer n).remainSize := by
  rcases after_cases reads reply stale n with hrunning | ⟨_, _, _, _, _, hleft⟩
  · exact hrunning
  · obtain ⟨m, k, hanswer, -, hall, -⟩ := left_cases reads reply stale hleft
    have hlt := hpartly (m + 1)
    rw [reads.answer.delivered_succ, hanswer, Option.elim_some, ReadResult.bytes, hall] at hlt
    exact absurd hlt (lt_irrefl _)

end Rounds

/-! ### The law -/

section Law

variable {maxRecvLen : ℕ} {reads : HostReads maxRecvLen} {send : SendOutcome}

open HostLoop

/-- A reply with one byte that is not zero, at its start. -/
def markedReply : RecvBuffer := zeroBuffer.recv [1]

lemma markedReply_head : markedReply.1[0]? = some 1 := by decide

lemma markedReply_ne : zeroBuffer ≠ markedReply := by
  intro h
  have hhead := markedReply_head
  rw [← h] at hhead
  exact absurd hhead (by decide)

/-- Behind its start it is zero. -/
lemma markedReply_drop {d : ℕ} (hd : 0 < d) (hlt : d < msgBuffSize) :
    markedReply.1[d]? = some 0 := by
  obtain ⟨d, rfl⟩ := Nat.exists_eq_succ_of_ne_zero hd.ne'
  rw [markedReply, zeroBuffer.recv_of_le (by decide), List.singleton_append,
    List.getElem?_cons_succ, List.length_singleton, List.getElem?_drop, zeroBuffer,
    List.getElem?_replicate, if_pos (by omega)]

/-- **The loop is left in one read** if it leaves the whole reply in its buffer, whatever
that is. -/
lemma atOnce_of_left {n : ℕ}
    (hleft : (after markedReply zeroBuffer reads.answer n).remainSize ≤ 0)
    (hreply : (after markedReply zeroBuffer reads.answer n).recvBuffer = markedReply) :
    reads.answer.AtOnce := by
  obtain ⟨m, k, hanswer, hk, hall, hfailures, hbuffer⟩ :=
    left_cases reads markedReply zeroBuffer hleft
  -- the byte at the start is the first of the last read
  have hstart : reads.answer.delivered m = 0 := by
    by_contra hne
    have hlen : ((markedReply.1.drop (reads.answer.delivered m)).take k).length = k := by
      rw [List.length_take_of_le]
      rw [List.length_drop, markedReply.2]
      omega
    have hhead := congrArg (fun b : RecvBuffer => b.1[0]?) (hbuffer.symm.trans hreply)
    rw [RecvBuffer.recv_of_le _ (by omega), List.getElem?_append_left (by omega),
      List.getElem?_take_of_lt hk, List.getElem?_drop, add_zero,
      markedReply_drop (by omega) (by omega), markedReply_head] at hhead
    exact absurd hhead (by decide)
  rw [hstart, zero_add] at hall
  refine ⟨m, fun i hi => ?_, hall ▸ hanswer⟩
  cases hi' : reads.answer i with
  | none => rfl
  | some r =>
      exfalso
      cases r with
      | data k' =>
          have hle := reads.answer.le_delivered hi
          rw [hi', Option.elim_some, ReadResult.bytes, hstart] at hle
          have hpos := (reads.data i k' hi').1
          omega
      | closed => exact reads.closed i m k hi hi' hanswer
      | failed errno =>
          have hle := reads.answer.le_failures (hi.trans m.lt_succ_self)
          rw [hi', Option.elim_some, ReadResult.failures, hfailures] at hle
          omega

/-- Read at once, the reply is in the buffer when the loop is left. -/
lemma after_of_atOnce {n : ℕ} (hnone : ∀ m < n, reads.answer m = none)
    (hanswer : reads.answer n = some (.data msgBuffSize)) (reply stale : RecvBuffer) :
    (∀ m ≤ n, after reply stale reads.answer m = .init stale) ∧
      ∀ m, n < m → (after reply stale reads.answer m).remainSize = 0 ∧
        (after reply stale reads.answer m).recvBuffer = reply := by
  have hpos : 0 < (HostLoop.init stale).remainSize := init_remain_pos
  have hinit : ∀ m ≤ n, after reply stale reads.answer m = .init stale := by
    intro m hm
    induction m with
    | zero => rfl
    | succ m ih =>
        rw [after, ih (by omega), if_pos hpos, hnone m hm]
        rfl
  refine ⟨hinit, fun m hm => ?_⟩
  induction m, hm using Nat.le_induction with
  | base =>
      rw [after, hinit n le_rfl, if_pos hpos, hanswer]
      refine ⟨sub_self _, Subtype.ext ?_⟩
      show (stale.recv ((reply.1.drop 0).take msgBuffSize)).1 = reply.1
      have htake : (reply.1.drop 0).take msgBuffSize = reply.1 := List.take_of_length_le reply.2.le
      rw [htake, stale.recv_of_le reply.2.le, reply.2, List.drop_of_length_le stale.2.le,
        List.append_nil]
  | succ m hm ih =>
      rw [after, if_neg (by rw [ih.1]; exact lt_irrefl _)]
      exact ih

/-- Read at once, the reply is reassembled. -/
lemma reassembles_of_atOnce (hsent : send.size = 24) (h : reads.answer.AtOnce) :
    ReassemblesOrFails send reads.answer := by
  obtain ⟨n, hnone, hanswer⟩ := h
  have hafter := after_of_atOnce hnone hanswer
  refine ⟨fun reply stale _ m => ?_, fun reply stale _ _ => ⟨n + 1, ?_⟩,
    fun reply stale buffer hshown => ?_⟩
  · rcases le_or_gt m n with hle | hlt
    · rw [(hafter reply stale).1 m hle]
      show (msgBuffSize : ℤ) < 2147483648
      decide
    · rw [((hafter reply stale).2 m hlt).1]
      norm_num
  · exact ((hafter reply stale).2 _ n.lt_succ_self).1.le
  · cases hshown with
    | unsent hunsent => exact absurd hsent hunsent
    | @answered _ m hleft =>
        rcases le_or_gt m n with hle | hlt
        · rw [(hafter reply stale).1 m hle] at hleft
          exact absurd init_remain_pos (not_lt.mpr hleft)
        · exact ((hafter reply stale).2 m hlt).2

/-- With the reply still on its way nothing is printed. -/
lemma reassembles_of_pending (hsent : send.size = 24) (h : reads.answer.Pending) :
    ReassemblesOrFails send reads.answer := by
  have hrunning := fun reply stale => running_of_partly reads reply stale h.partly
  refine ⟨fun reply stale _ n => ?_, fun reply stale _ hends => ?_,
    fun reply stale buffer hshown => ?_⟩
  · rw [(hrunning reply stale n).1.remain]
    exact h.few n
  · obtain ⟨n, hall | hclosed⟩ := hends
    · exact absurd hall (h.partly n).ne
    · exact absurd hclosed (h.opened n)
  · cases hshown with
    | unsent hunsent => exact absurd hsent hunsent
    | @answered _ n hleft => exact absurd (hrunning reply stale n).2 (not_lt.mpr hleft)

/-- **The reply of a host query is reassembled, or the query fails**, exactly for these
outcomes: the request is sent whole, and the first read that returns anything returns the whole
reply, or the reply is never read to its end and the peer never closes. -/
theorem host_query_reassembles_iff (send : SendOutcome) (reads : HostReads maxRecvLen) :
    ReassemblesOrFails send reads.answer ↔
      send.size = 24 ∧ (reads.answer.AtOnce ∨ reads.answer.Pending) := by
  constructor
  · intro h
    have hsent : send.size = 24 := by
      by_contra hunsent
      exact markedReply_ne (h.shown markedReply zeroBuffer _ (.unsent hunsent))
    refine ⟨hsent, ?_⟩
    by_cases hends : ∃ n, reads.answer.delivered n = msgBuffSize ∨ reads.answer n = some .closed
    · obtain ⟨n, hleft⟩ := h.leaves markedReply zeroBuffer hsent hends
      exact .inl (atOnce_of_left hleft (h.shown _ _ _ (.answered hsent hleft)))
    · push Not at hends
      have hpartly : ∀ n, reads.answer.delivered n < msgBuffSize :=
        fun n => lt_of_le_of_ne (reads.whole n) (hends n).1
      refine .inr ⟨fun n => (hends n).2, hpartly, fun n => ?_⟩
      rw [← (running_of_partly reads zeroBuffer zeroBuffer hpartly n).1.remain]
      exact h.fits zeroBuffer zeroBuffer hsent n
  · rintro ⟨hsent, hatOnce | hpending⟩
    · exact reassembles_of_atOnce hsent hatOnce
    · exact reassembles_of_pending hsent hpending

/-- A request that is sent whole. -/
def sentWhole : SendOutcome := some ⟨24, by norm_num⟩

/-- A peer that closes the connection instead of a reply. -/
def closedPeer : HostReads msgBuffSize where
  answer _ := some .closed
  data _ _ h := by cases h
  whole _ := (Finset.sum_eq_zero fun _ _ => rfl).trans_le (Nat.zero_le _)
  closed _ _ _ _ _ h := by cases h
  error _ _ _ _ _ h := by cases h

/-- When the peer closes, the loop is never left. -/
theorem closed_peer_never_left : ¬ReassemblesOrFails sentWhole closedPeer.answer := by
  intro h
  obtain ⟨n, hleft⟩ := h.leaves zeroBuffer zeroBuffer rfl ⟨0, .inr rfl⟩
  obtain ⟨m, k, hanswer, -⟩ := left_cases closedPeer zeroBuffer zeroBuffer hleft
  cases hanswer

end Law

end Epbs
