/-
`CSockTcp::SafeSend` and `CSockTcp::SafeRecv`: a buffer sent or received in pieces.

* `SocketKernel`: what the kernel answers to the calls, and `SocketUse`: the calls made, what
  went over the socket, and the buffer;
* `safeSend`, `receive`, `safeRecv`;
* `Passes`: what a call does, the same for both directions;
* `MovesPrefix`: a prefix of the buffer went over the socket, and nothing else was touched;
* `safe_transfers_prefix`: so it is for every sequence of answers.
-/
import Epbs.Machine.Pieces
import Epbs.Machine.Words

namespace Epbs

open Pieces

/-! ### The calls -/

/-- `MAX_SEND_LEN` and `MAX_RECV_LEN`. -/
structure PieceLimits where
  maxSendLen : {n : ℤ // 0 < n}
  maxRecvLen : {n : ℤ // 0 < n}

/-- What `recv` comes to: its result, and the bytes it delivers. -/
structure Delivery (asked : ℤ) where
  ret : ℤ
  bytes : List UInt8
  ret_le : ret ≤ asked
  length_bytes : bytes.length = ret.toNat

/-- What the kernel answers to the calls on a socket, by their number and what they ask for. -/
structure SocketKernel where
  send : ℕ → (asked : ℤ) → {ret : ℤ // ret ≤ asked}
  recv : ℕ → (asked : ℤ) → Delivery asked

/-- A call of `send` or `recv`: the descriptor, where the bytes begin in the buffer, how many
are asked for, and the result. -/
structure SocketCall where
  fd : ℤ
  start : ℤ
  asked : ℤ
  ret : ℤ

/-- The use of a socket: the calls so far, the bytes that the kernel accepted or delivered in
order, and the memory from `buf` on. -/
structure SocketUse where
  calls : List SocketCall
  moved : List UInt8
  buf : ℤ → UInt8

/-- Before the first call. -/
def SocketUse.init (buf : ℤ → UInt8) : SocketUse := ⟨[], [], buf⟩

/-- `send`: the kernel takes as many bytes as it says. -/
def SocketKernel.sendBytes (k : SocketKernel) (fd start asked : ℤ) (s : SocketUse) :
    SocketUse × ℤ :=
  let ret := (k.send s.calls.length asked).1
  ({ s with
      calls := s.calls ++ [⟨fd, start, asked, ret⟩]
      moved := s.moved ++ segment s.buf start ret.toNat }, ret)

/-- `recv`: the kernel writes what it delivers. -/
def SocketKernel.recvBytes (k : SocketKernel) (fd start asked : ℤ) (s : SocketUse) :
    SocketUse × ℤ :=
  let d := k.recv s.calls.length asked
  ({ calls := s.calls ++ [⟨fd, start, asked, d.ret⟩]
     moved := s.moved ++ d.bytes
     buf := overwrite s.buf start d.bytes }, d.ret)

/-! ### `CSockTcp` -/

/-- The fields of a `CSockTcp` that the transfer uses. -/
structure SockTcp where
  sockFD : ℤ
  bConnected : Bool

/-- **`SafeSend`**, with the loop and its result `nSent`. -/
def safeSend (sock : SockTcp) (limits : PieceLimits) (k : SocketKernel) (iLen : ℤ)
    (s : SocketUse) : SocketUse × ℤ :=
  if sock.bConnected then
    moveAll (fun nSent left => k.sendBytes sock.sockFD nSent (min left limits.maxSendLen)) iLen 0 s
  else (s, -1)

/-- **`Receive`** of at most `iLen` bytes into the buffer from `start` on. -/
def receive (sock : SockTcp) (limits : PieceLimits) (k : SocketKernel) (start iLen : ℤ)
    (s : SocketUse) : SocketUse × ℤ :=
  if sock.bConnected then k.recvBytes sock.sockFD start (min iLen limits.maxRecvLen) s
  else (s, -1)

/-- **`SafeRecv`**, with the loop and its result `nRecved`. -/
def safeRecv (sock : SockTcp) (limits : PieceLimits) (k : SocketKernel) (iLen : ℤ)
    (s : SocketUse) : SocketUse × ℤ :=
  moveAll (receive sock limits k) iLen 0 s

/-! ### The property -/

/-- A prefix of `n` bytes has gone over the socket, the memory is `buf` outside of it, and every
call was offered bytes inside the first `iLen`. -/
structure MovedPrefix (buf : ℤ → UInt8) (iLen n : ℤ) (s : SocketUse) : Prop where
  nonneg : 0 ≤ n
  le : n ≤ max iLen 0
  exact : s.moved = segment s.buf 0 n.toNat
  frame : ∀ a, a < 0 ∨ n ≤ a → s.buf a = buf a
  inside : ∀ c ∈ s.calls, 0 ≤ c.start ∧ 0 < c.asked ∧ c.start + c.asked ≤ iLen

/-- **An exact prefix**, all of it unless a call moved nothing. -/
structure MovesPrefix (buf : ℤ → UInt8) (iLen : ℤ) (r : SocketUse × ℤ) : Prop where
  moved : MovedPrefix buf iLen r.2 r.1
  short : r.2 < iLen → ∃ c ∈ r.1.calls, c.ret ≤ 0

/-! ### One call -/

/-- What a call does in either direction: it moves what it returns, from the place that it was given
on, and leaves the rest of the buffer. -/
structure Passes (start asked : ℤ) (s : SocketUse) (r : SocketUse × ℤ) : Prop where
  ret_le : r.2 ≤ asked
  calls : ∃ fd, r.1.calls = s.calls ++ [⟨fd, start, asked, r.2⟩]
  moved : r.1.moved = s.moved ++ segment r.1.buf start r.2.toNat
  frame : ∀ a, a < start ∨ start + r.2.toNat ≤ a → r.1.buf a = s.buf a

section Calls

variable {k : SocketKernel} {fd start asked : ℤ} {s : SocketUse}

lemma passes_sendBytes : Passes start asked s (k.sendBytes fd start asked s) where
  ret_le := (k.send s.calls.length asked).2
  calls := ⟨fd, rfl⟩
  moved := rfl
  frame _ _ := rfl

lemma passes_recvBytes : Passes start asked s (k.recvBytes fd start asked s) where
  ret_le := (k.recv s.calls.length asked).ret_le
  calls := ⟨fd, rfl⟩
  moved := by
    simp only [SocketKernel.recvBytes]
    rw [← (k.recv s.calls.length asked).length_bytes, segment_overwrite]
  frame a ha := by
    refine overwrite_outside ?_
    rwa [(k.recv s.calls.length asked).length_bytes]

end Calls

section Prefix

variable {buf : ℤ → UInt8} {iLen n asked : ℤ} {s : SocketUse} {r : SocketUse × ℤ}

/-- **A call behind the prefix** makes it longer by what it moves. -/
lemma MovedPrefix.pass (h : MovedPrefix buf iLen n s) (hr : Passes n asked s r)
    (hasked : 0 < asked) (hleft : asked ≤ iLen - n) :
    MovedPrefix buf iLen (n + r.2.toNat) r.1 := by
  have hnonneg := h.nonneg
  have hret := hr.ret_le
  obtain ⟨fd, hcalls⟩ := hr.calls
  refine ⟨by omega, by omega, ?_, ?_, ?_⟩
  · -- the bytes before are not overwritten
    have hbefore : segment s.buf 0 n.toNat = segment r.1.buf 0 n.toNat :=
      segment_congr fun a _ ha => (hr.frame a (Or.inl (by omega))).symm
    rw [hr.moved, h.exact, hbefore, Int.toNat_add hnonneg (Int.natCast_nonneg _),
      Int.toNat_natCast, segment_add, zero_add, Int.toNat_of_nonneg hnonneg]
  · intro a ha
    rw [hr.frame a (by omega), h.frame a (by omega)]
  · intro c hc
    rw [hcalls, List.mem_append, List.mem_singleton] at hc
    rcases hc with hc | rfl
    · exact h.inside c hc
    · refine ⟨hnonneg, hasked, ?_⟩
      change n + asked ≤ iLen
      omega

/-- **The loop**, when its calls ask for some of what is left. -/
lemma movesPrefix_moveAll {call : ℤ → ℤ → SocketUse → SocketUse × ℤ}
    (hcall : ∀ n left s, 0 < left →
      ∃ asked, 0 < asked ∧ asked ≤ left ∧ Passes n asked s (call n left s)) :
    MovesPrefix buf iLen (moveAll call iLen 0 (SocketUse.init buf)) := by
  refine moveAll_rule (I := MovedPrefix buf iLen)
    (Q := fun n s => MovesPrefix buf iLen (s, n)) ?_ ?_ ?_ ?_
  · intro n s hlt h hpos
    obtain ⟨asked, hasked, hleft, hpass⟩ := hcall n (iLen - n) s (by omega)
    have hnext := h.pass hpass hasked hleft
    rwa [Int.toNat_of_nonneg hpos.le] at hnext
  · intro n s hlt h hstuck
    obtain ⟨asked, hasked, hleft, hpass⟩ := hcall n (iLen - n) s (by omega)
    have hnext := h.pass hpass hasked hleft
    rw [Int.toNat_of_nonpos hstuck, Nat.cast_zero, add_zero] at hnext
    obtain ⟨fd, hcalls⟩ := hpass.calls
    have hlast : ⟨fd, n, asked, (call n (iLen - n) s).2⟩ ∈ (call n (iLen - n) s).1.calls := by
      rw [hcalls]
      exact List.mem_append_right _ List.mem_cons_self
    exact ⟨hnext, fun _ => ⟨_, hlast, hstuck⟩⟩
  · exact fun n s hle h => ⟨h, fun hlt => absurd hlt (not_lt.mpr hle)⟩
  · exact ⟨le_rfl, le_max_right _ _, rfl, fun _ _ => rfl, fun c hc => absurd hc List.not_mem_nil⟩

end Prefix

/-! ### The two directions -/

section Directions

variable {sock : SockTcp} {limits : PieceLimits} {k : SocketKernel} {buf : ℤ → UInt8} {iLen : ℤ}

/-- A piece is not empty, and not larger than what is left. -/
lemma piece_bounds {left : ℤ} (hleft : 0 < left) (limit : {n : ℤ // 0 < n}) :
    0 < min left limit ∧ min left limit ≤ left :=
  ⟨lt_min hleft limit.2, min_le_left _ _⟩

lemma movesPrefix_safeSend (hconn : sock.bConnected = true) :
    MovesPrefix buf iLen (safeSend sock limits k iLen (SocketUse.init buf)) := by
  rw [safeSend, if_pos hconn]
  refine movesPrefix_moveAll fun n left s hleft => ?_
  obtain ⟨hpos, hle⟩ := piece_bounds hleft limits.maxSendLen
  exact ⟨_, hpos, hle, passes_sendBytes⟩

lemma movesPrefix_safeRecv (hconn : sock.bConnected = true) :
    MovesPrefix buf iLen (safeRecv sock limits k iLen (SocketUse.init buf)) := by
  refine movesPrefix_moveAll fun n left s hleft => ?_
  obtain ⟨hpos, hle⟩ := piece_bounds hleft limits.maxRecvLen
  refine ⟨_, hpos, hle, ?_⟩
  rw [receive, if_pos hconn]
  exact passes_recvBytes

/-- A buffer is not changed by sending it. -/
lemma buf_safeSend : (safeSend sock limits k iLen (SocketUse.init buf)).1.buf = buf := by
  rw [safeSend]
  split_ifs
  · let unchanged : ℤ → SocketUse → Prop := fun _ s => s.buf = buf
    exact moveAll_rule (I := unchanged) (Q := unchanged) (fun _ _ _ h _ => h)
      (fun _ _ _ h _ => h) (fun _ _ _ h => h) rfl
  · rfl

/-- **`SafeSend` and `SafeRecv` transfer an exact prefix**, whatever the kernel answers. -/
theorem safe_transfers_prefix (sock : SockTcp) (hconn : sock.bConnected = true)
    (limits : PieceLimits) (k : SocketKernel) (buf : ℤ → UInt8) (iLen : ℤ) :
    (MovesPrefix buf iLen (safeSend sock limits k iLen (SocketUse.init buf)) ∧
        (safeSend sock limits k iLen (SocketUse.init buf)).1.buf = buf) ∧
      MovesPrefix buf iLen (safeRecv sock limits k iLen (SocketUse.init buf)) :=
  ⟨⟨movesPrefix_safeSend hconn, buf_safeSend⟩, movesPrefix_safeRecv hconn⟩

end Directions

/-! ### Short transfers -/

/-- A kernel that moves two bytes at a time, if as many are asked for. -/
def pairKernel : SocketKernel where
  send _ asked := ⟨min asked 2, min_le_left asked 2⟩
  recv _ asked := ⟨min asked 2, List.replicate (min asked 2).toNat 7, min_le_left asked 2,
    List.length_replicate⟩

/-- Pieces of up to three bytes. -/
def threes : PieceLimits := ⟨⟨3, zero_lt_three⟩, ⟨3, zero_lt_three⟩⟩

/-- Five bytes, two at a time. -/
theorem safe_transfers_prefix_pairs :
    (MovesPrefix (fun a => UInt8.ofNat a.toNat) 5
          (safeSend ⟨4, true⟩ threes pairKernel 5 (SocketUse.init fun a => UInt8.ofNat a.toNat)) ∧
        (safeSend ⟨4, true⟩ threes pairKernel 5
            (SocketUse.init fun a => UInt8.ofNat a.toNat)).1.buf =
          fun a => UInt8.ofNat a.toNat) ∧
      MovesPrefix (fun a => UInt8.ofNat a.toNat) 5
        (safeRecv ⟨4, true⟩ threes pairKernel 5 (SocketUse.init fun a => UInt8.ofNat a.toNat)) :=
  safe_transfers_prefix ⟨4, true⟩ rfl threes pairKernel (fun a => UInt8.ofNat a.toNat) 5

end Epbs
