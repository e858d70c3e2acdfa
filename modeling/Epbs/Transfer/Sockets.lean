/-
The sockets of `etransfer/utcp_socket.cpp` and the descriptors of the kernel, over any order of
the calls.

* `UTcpSocket.connect`, `UTcpSocket.registerSock`, `UTcpSocket.close`, `UTcpSocket.recv`,
  `UTcpSocket.send`: the calls, with the descriptors that they open and close;
* `recv_of_some`, `send_of_some`, `closeSocket_of_some`: the calls of `ETransfer` are these;
* `createSocket`: `eTransfer::create_socket`;
* `sockMachine`: the calls in any order, and what the kernel accepts;
* `Accounts`, `accounts_call`: the books are right as long as no call lost a descriptor;
* `descriptors_accounted_iff`: no two sockets share a descriptor, none holds one that is closed,
  and exactly which calls lose one.
-/
import Epbs.Machine.Guarded
import Epbs.Machine.Ownership
import Epbs.Transfer.Bookkeeping

namespace Epbs

open Ownership

/-! ### The calls of a socket -/

/-- A descriptor: closed, accepted and not given to a socket yet, or given to one. -/
inductive FileStat where
  | closed | fresh | taken
  deriving DecidableEq

/-- The descriptors of the process. -/
abbrev Files := ℕ → FileStat

/-- A descriptor from `::accept` is given to a socket. -/
def Files.give (files : Files) (fd : ℕ) : Files :=
  if files fd = .fresh then Function.update files fd .taken else files

/-- `EINPROGRESS`. -/
def einprogress : ℤ := 115

/-- The answers during `UTcpSocket::connect`: the descriptor of `::socket` or its error, and
the errors of `setSockNonBlocking` and of `::connect`, if they fail. -/
structure ConnectIo where
  socket : Except ℤ ℕ
  setSockNonBlocking : Option ℤ
  connect : Option ℤ

/-- The kernel returns a descriptor that is not open. -/
def ConnectIo.Fresh (io : ConnectIo) (files : Files) : Prop :=
  ∀ fd, io.socket = .ok fd → files fd = .closed

instance (io : ConnectIo) (files : Files) : Decidable (io.Fresh files) :=
  match h : io.socket with
  | .error _ => isTrue fun fd hfd => by rw [h] at hfd; cases hfd
  | .ok fd => decidable_of_iff (files fd = .closed)
      ⟨fun hfd fd' heq => by rw [h] at heq; cases heq; exact hfd, fun hall => hall fd h⟩

namespace UTcpSocket

/-- **`connect`**: the socket, the descriptors and the result.  The old value of `m_sock` is
overwritten first. -/
def connect (io : ConnectIo) (s : UTcpSocket) (files : Files) : UTcpSocket × Files × ℤ :=
  match io.socket with
  | .error errno => ({ s with mSock := -1 }, files, errno)
  | .ok fd =>
      let failed (errno : ℤ) :=
        ({ s with mStatus := .error, mReason := errno, mSock := -1 },
          Function.update files fd .closed, errno)
      match io.setSockNonBlocking with
      | some errno => failed errno
      | none =>
          match io.connect with
          | none =>
              ({ s with mSock := fd, mStatus := .connected }, Function.update files fd .taken, 0)
          | some errno =>
              if errno = einprogress ∨ errno = eagain then
                ({ s with mSock := fd, mStatus := .connecting },
                  Function.update files fd .taken, 0)
              else failed errno

/-- `close`. -/
def close (s : UTcpSocket) (files : Files) : UTcpSocket × Files :=
  if 0 ≤ s.mSock then
    ({ s with mStatus := .closed, mSock := -1 }, Function.update files s.mSock.toNat .closed)
  else (s, files)

/-- **`register_sock`**, which does not take the descriptor 0. -/
def registerSock (fd : ℕ) (s : UTcpSocket) (files : Files) : UTcpSocket × Files × ℤ :=
  if (fd : ℤ) ≤ 0 then (s, files, -1)
  else
    let (s, files) := s.close files
    ({ s with mSock := fd, mStatus := .connected }, Files.give files fd, 0)

/-- An error of `::recv` or `::send`. -/
def noteError (s : UTcpSocket) (errno : ℤ) : UTcpSocket :=
  { s with mReason := errno, mStatus := if errno ≠ eagain then .error else s.mStatus }

/-- `recv`: the socket, the bytes received and the result. -/
def recv (len : ℕ) (answer : RecvAnswer) (s : UTcpSocket) : UTcpSocket × Bytes × ℤ :=
  if s.isError then (s, [], -1)
  else
    match answer with
    | .error errno => (s.noteError errno, [], -1)
    | .data bytes =>
        if bytes.take len = [] then ({ s with mStatus := .closed }, [], 0)
        else (s, bytes.take len, (bytes.take len).length)

/-- `send`: the socket and the result. -/
def send (buf : Bytes) (answer : SendAnswer) (s : UTcpSocket) : UTcpSocket × ℤ :=
  if s.isError then (s, -1)
  else
    match answer with
    | .error errno => (s.noteError errno, -1)
    | .sent n => (s, (buf.take n).length)

/-- The descriptor that a socket holds. -/
def held (s : UTcpSocket) : Option ℕ := if 0 ≤ s.mSock then some s.mSock.toNat else none

end UTcpSocket

section Transfer

variable {t : ETransfer} {p : Ptr} {s : UTcpSocket}

lemma sock_of_some (hp : t.sockets p = some s) : t.sock p = s := by
  rw [ETransfer.sock, hp, Option.getD_some]

lemma setSock_of_some (hp : t.sockets p = some s) (f : UTcpSocket → UTcpSocket) :
    t.setSock p f = { t with sockets := Function.update t.sockets p (some (f s)) } := by
  rw [ETransfer.setSock, hp, Option.map_some]

lemma update_of_some (hp : t.sockets p = some s) :
    Function.update t.sockets p (some s) = t.sockets := by
  rw [← hp, Function.update_eq_self]

/-- The calls of a transfer are those of its socket. -/
lemma recv_of_some (hp : t.sockets p = some s) (len : ℕ) (answer : RecvAnswer) :
    t.recv p len answer =
      ({ t with sockets := Function.update t.sockets p (some (s.recv len answer).1) },
        (s.recv len answer).2) := by
  unfold ETransfer.recv UTcpSocket.recv
  rw [sock_of_some hp]
  split_ifs with herr
  · rw [update_of_some hp]
  · cases answer with
    | error errno =>
        exact congrArg (·, [], -1) (setSock_of_some hp _)
    | data bytes =>
        simp only
        split_ifs
        · rw [setSock_of_some hp]
        · rw [update_of_some hp]

lemma send_of_some (hp : t.sockets p = some s) (buf : Bytes) (answer : SendAnswer) :
    (t.send p buf answer).1.sockets =
        Function.update t.sockets p (some (s.send buf answer).1) ∧
      (t.send p buf answer).2 = (s.send buf answer).2 := by
  unfold ETransfer.send UTcpSocket.send
  rw [sock_of_some hp]
  split_ifs with herr
  · exact ⟨(update_of_some hp).symm, rfl⟩
  · cases answer with
    | error errno =>
        exact ⟨congrArg ETransfer.sockets (setSock_of_some hp _), rfl⟩
    | sent n => exact ⟨(update_of_some hp).symm, rfl⟩

lemma closeSocket_of_some (hp : t.sockets p = some s) (files : Files) :
    (t.closeSocket p).sockets = Function.update t.sockets p (some (s.close files).1) := by
  rw [ETransfer.closeSocket, sock_of_some hp, UTcpSocket.close]
  split_ifs
  · rw [setSock_of_some hp]
  · exact (update_of_some hp).symm

end Transfer

/-- **`eTransfer::create_socket`** for `SOCK_TYPE_TCP`, with what the memory of the object held:
the socket if it is connected, the descriptors, and the error that is returned, `none` where the
function ends without a `return`. -/
def createSocket (reason : ℤ) (io : ConnectIo) (files : Files) :
    Option UTcpSocket × Files × Option ℤ :=
  let (s, files, result) := (UTcpSocket.new reason).connect io files
  if result = 0 then (some s, files, none) else (none, files, some s.mReason)

/-! ### The calls in any order -/

/-- The sockets behind their addresses, and the descriptors. -/
structure SockTable where
  sockets : Ptr → Option UTcpSocket
  files : Files

/-- A call: `new` and `delete`, the calls of a socket, `create_socket`; what `::accept` returns,
and the caller's own `::close` of it. -/
inductive SockCall where
  | new (p : Ptr) (reason : ℤ)
  | delete (p : Ptr)
  | accept (fd : ℕ)
  | giveBack (fd : ℕ)
  | bind (p : Ptr) (fd : ℕ)
  | connect (p : Ptr) (io : ConnectIo)
  | registerSock (p : Ptr) (fd : ℕ)
  | recv (p : Ptr) (len : ℕ) (answer : RecvAnswer)
  | send (p : Ptr) (buf : Bytes) (answer : SendAnswer)
  | close (p : Ptr)
  | createSocket (p : Ptr) (reason : ℤ) (io : ConnectIo)

namespace SockTable

/-- The socket at an address is replaced, and the descriptors are. -/
def set (t : SockTable) (p : Ptr) (s : Option UTcpSocket) (files : Files) : SockTable :=
  ⟨Function.update t.sockets p s, files⟩

/-- **A call**, on a socket that is there; `new` returns an address that is not in use. -/
def call (t : SockTable) : SockCall → Option SockTable
  | .new p reason =>
      if t.sockets p = none then some (t.set p (some (.new reason)) t.files) else none
  | .delete p => (t.sockets p).map fun _ => t.set p none t.files
  | .accept fd =>
      if t.files fd = .closed then some { t with files := Function.update t.files fd .fresh }
      else none
  | .giveBack fd =>
      if t.files fd = .fresh then some { t with files := Function.update t.files fd .closed }
      else none
  | .bind p fd => (t.sockets p).map fun s =>
      t.set p (some (s.bind fd)) (Files.give t.files fd)
  | .connect p io =>
      if io.Fresh t.files then
        (t.sockets p).map fun s =>
          t.set p (some (s.connect io t.files).1) (s.connect io t.files).2.1
      else none
  | .registerSock p fd => (t.sockets p).map fun s =>
      t.set p (some (s.registerSock fd t.files).1) (s.registerSock fd t.files).2.1
  | .recv p len answer => (t.sockets p).map fun s => t.set p (some (s.recv len answer).1) t.files
  | .send p buf answer => (t.sockets p).map fun s => t.set p (some (s.send buf answer).1) t.files
  | .close p => (t.sockets p).map fun s => t.set p (some (s.close t.files).1) (s.close t.files).2
  | .createSocket p reason io =>
      if t.sockets p = none ∧ io.Fresh t.files then
        some (t.set p (Epbs.createSocket reason io t.files).1
          (Epbs.createSocket reason io t.files).2.1)
      else none

/-- The descriptor that the socket at an address holds. -/
def hold (t : SockTable) (p : Ptr) : Option ℕ := (t.sockets p).bind UTcpSocket.held

/-- The descriptors that were given to a socket and are open. -/
def live (t : SockTable) : Set ℕ := {fd | t.files fd = .taken}

end SockTable

/-- The calls of a process, from its start. -/
def sockMachine : Machine SockTable SockCall where
  init := ⟨fun _ => none, fun _ => .closed⟩
  step c t := t.call c

/-- The callers give `bind` and `register_sock` a descriptor from `::accept`, once. -/
def Given (t : SockTable) : SockCall → Prop
  | .bind _ fd | .registerSock _ fd => t.files fd = .fresh
  | _ => True

/-- A socket is given another descriptor, or deleted, only when it holds none. -/
def Released (t : SockTable) : SockCall → Prop
  | .bind p _ | .connect p _ | .delete p => t.hold p = none
  | _ => True

/-! ### What a call does -/

section Files

variable {files : Files} {fd : ℕ} {stat : FileStat}

lemma taken_update (files : Files) (fd : ℕ) :
    {x | Function.update files fd .taken x = .taken} = insert fd {x | files x = .taken} := by
  ext x
  by_cases heq : x = fd
  · subst heq
    simp
  · simp [heq]

lemma taken_update_of_ne (hstat : stat ≠ .taken) :
    {x | Function.update files fd stat x = .taken} = {x | files x = .taken} \ {fd} := by
  ext x
  by_cases heq : x = fd
  · subst heq
    simp [hstat]
  · simp [heq]

/-- A descriptor that no socket was given changes. -/
lemma taken_update_of_not (hstat : stat ≠ .taken) (hfd : files fd ≠ .taken) :
    {x | Function.update files fd stat x = .taken} = {x | files x = .taken} := by
  rw [taken_update_of_ne hstat]
  exact Set.sdiff_singleton_eq_self hfd

end Files

namespace UTcpSocket

variable {s : UTcpSocket}

lemma held_of_nonneg {fd : ℕ} (h : s.mSock = fd) : s.held = some fd := by
  rw [held, h, if_pos (Int.natCast_nonneg fd), Int.toNat_natCast]

lemma held_congr {s' : UTcpSocket} (h : s'.mSock = s.mSock) : s'.held = s.held := by
  rw [held, held, h]

lemma mSock_recv (len : ℕ) (answer : RecvAnswer) : (s.recv len answer).1.mSock = s.mSock := by
  unfold recv
  split_ifs
  · rfl
  · cases answer with
    | error errno => rfl
    | data bytes =>
        simp only
        split_ifs <;> rfl

lemma mSock_send (buf : Bytes) (answer : SendAnswer) : (s.send buf answer).1.mSock = s.mSock := by
  unfold send
  split_ifs
  · rfl
  · cases answer <;> rfl

/-- **What `connect` leaves**: a socket without a descriptor, and as many open ones as before, or
a socket with the new one. -/
lemma connect_cases {io : ConnectIo} {files : Files} (hio : io.Fresh files) (s : UTcpSocket) :
    ((s.connect io files).1.held = none ∧
      {fd | (s.connect io files).2.1 fd = .taken} = {fd | files fd = .taken}) ∨
    ∃ fd, files fd = .closed ∧ (s.connect io files).1.held = some fd ∧
      (s.connect io files).2.1 = Function.update files fd .taken ∧
      (s.connect io files).2.2 = 0 := by
  cases hsock : io.socket with
  | error errno =>
      rw [connect, hsock]
      exact .inl ⟨rfl, rfl⟩
  | ok fd =>
      have hfd := hio fd hsock
      have hfailed : {x | Function.update files fd .closed x = .taken} = {x | files x = .taken} :=
        taken_update_of_not (by decide) (by rw [hfd]; decide)
      rw [connect, hsock]
      cases hblock : io.setSockNonBlocking with
      | some errno => exact .inl ⟨rfl, hfailed⟩
      | none =>
          cases hconn : io.connect with
          | none => exact .inr ⟨fd, hfd, held_of_nonneg rfl, rfl, rfl⟩
          | some errno =>
              simp only
              split_ifs with hwait
              · exact .inr ⟨fd, hfd, held_of_nonneg rfl, rfl, rfl⟩
              · exact .inl ⟨rfl, hfailed⟩

/-- **What `close` leaves**: no descriptor. -/
lemma close_cases (s : UTcpSocket) (files : Files) :
    (s.held = none ∧ s.close files = (s, files)) ∨
    ∃ fd, s.held = some fd ∧ (s.close files).1.held = none ∧
      (s.close files).2 = Function.update files fd .closed := by
  by_cases hpos : 0 ≤ s.mSock
  · refine .inr ⟨s.mSock.toNat, if_pos hpos, ?_, ?_⟩
    · rw [close, if_pos hpos]
      rfl
    · rw [close, if_pos hpos]
  · exact .inl ⟨if_neg hpos, if_neg hpos⟩

end UTcpSocket

/-- What `create_socket` returns and leaves. -/
lemma createSocket_cases (reason : ℤ) {io : ConnectIo} {files : Files} (hio : io.Fresh files) :
    ((createSocket reason io files).1.bind UTcpSocket.held = none ∧
      {fd | (createSocket reason io files).2.1 fd = .taken} = {fd | files fd = .taken}) ∨
    ∃ fd, files fd = .closed ∧ (createSocket reason io files).1.bind UTcpSocket.held = some fd ∧
      (createSocket reason io files).2.1 = Function.update files fd .taken := by
  have hcases := (UTcpSocket.new reason).connect_cases hio
  rw [createSocket]
  generalize (UTcpSocket.new reason).connect io files = answer at hcases ⊢
  obtain ⟨s, files', result⟩ := answer
  rcases hcases with ⟨hnone, hfiles⟩ | ⟨fd, hfd, hsome, hfiles, hresult⟩
  · refine .inl ?_
    simp only
    split_ifs
    · exact ⟨hnone, hfiles⟩
    · exact ⟨rfl, hfiles⟩
  · refine .inr ⟨fd, hfd, ?_⟩
    simp only
    rw [if_pos hresult]
    exact ⟨hsome, hfiles⟩

/-- **What a call leaves of the descriptors**: each has one owner at most, and none is lost if
the call meets `ok`, and only then. -/
structure Accounts (t : SockTable) (ok : Prop) (t' : SockTable) : Prop where
  exclusive : SingleOwner t'.hold t'.live
  noneLost : NoneLost t'.hold t'.live ↔ NoneLost t.hold t.live ∧ ok

namespace Accounts

variable {t t' t'' : SockTable} {p : Ptr} {fd : ℕ}

lemma same (h : SingleOwner t.hold t.live) (hhold : t'.hold = t.hold) (hlive : t'.live = t.live) :
    Accounts t True t' := by
  refine ⟨?_, ?_⟩
  · rwa [hhold, hlive]
  · rw [hhold, hlive, and_true]

lemma take (h : SingleOwner t.hold t.live) (hfd : t.files fd ≠ .taken)
    (hhold : t'.hold = Function.update t.hold p (some fd)) (hlive : t'.live = insert fd t.live) :
    Accounts t (t.hold p = none) t' := by
  refine ⟨?_, ?_⟩
  · rw [hhold, hlive]
    exact h.take p hfd
  · rw [hhold, hlive]
    exact noneLost_take_iff h hfd

lemma drop (h : SingleOwner t.hold t.live) (hhold : t'.hold = Function.update t.hold p none)
    (hlive : t'.live = t.live) : Accounts t (t.hold p = none) t' := by
  refine ⟨?_, ?_⟩
  · rw [hhold, hlive]
    exact h.drop p
  · rw [hhold, hlive]
    exact noneLost_drop_iff h

lemma close (h : SingleOwner t.hold t.live) (hp : t.hold p = some fd)
    (hhold : t'.hold = Function.update t.hold p none) (hlive : t'.live = t.live \ {fd}) :
    Accounts t True t' := by
  refine ⟨?_, ?_⟩
  · rw [hhold, hlive]
    exact h.close hp
  · rw [hhold, hlive, noneLost_close_iff hp, and_true]

/-- One call after another that loses nothing. -/
lemma trans {ok : Prop} (h : Accounts t True t') (h' : Accounts t' ok t'') :
    Accounts t ok t'' where
  exclusive := h'.exclusive
  noneLost := by rw [h'.noneLost, h.noneLost, and_true]

lemma of_true {ok : Prop} (hok : ok) (h : Accounts t ok t') : Accounts t True t' where
  exclusive := h.exclusive
  noneLost := by rw [h.noneLost, and_iff_left hok, and_true]

end Accounts

namespace SockTable

variable {t t' : SockTable} {p : Ptr} {s : UTcpSocket}

lemma hold_set (t : SockTable) (p : Ptr) (s : Option UTcpSocket) (files : Files) :
    (t.set p s files).hold = Function.update t.hold p (s.bind UTcpSocket.held) := by
  funext q
  show (Function.update t.sockets p s q).bind UTcpSocket.held = _
  by_cases heq : q = p
  · rw [heq, Function.update_self, Function.update_self]
  · rw [Function.update_of_ne heq, Function.update_of_ne heq, hold]

/-- A socket that keeps its descriptor. -/
lemma hold_set_self {s : Option UTcpSocket} (hs : s.bind UTcpSocket.held = t.hold p)
    (files : Files) : (t.set p s files).hold = t.hold := by
  rw [hold_set, hs, Function.update_eq_self]

lemma hold_of_some (hp : t.sockets p = some s) : t.hold p = s.held := by
  rw [hold, hp, Option.bind_some]

/-- A socket takes a descriptor that no socket holds. -/
lemma accounts_take (h : SingleOwner t.hold t.live) {fd : ℕ} (hfd : t.files fd ≠ .taken)
    {s : Option UTcpSocket} (hs : s.bind UTcpSocket.held = some fd) {files : Files}
    (hfiles : files = Function.update t.files fd .taken) :
    Accounts t (t.hold p = none) (t.set p s files) := by
  refine .take h hfd ?_ ?_
  · rw [hold_set, hs]
  · show {x | files x = .taken} = _
    rw [hfiles]
    exact taken_update ..

/-- A descriptor from `::accept` is given to a socket. -/
lemma accounts_give (h : SingleOwner t.hold t.live) {fd : ℕ} (hfd : t.files fd = .fresh)
    (hs : s.mSock = fd) :
    Accounts t (t.hold p = none) (t.set p (some s) (Files.give t.files fd)) := by
  have hnew : t.files fd ≠ .taken := by rw [hfd]; decide
  exact accounts_take (s := some s) h hnew (s.held_of_nonneg hs) (if_pos hfd)

/-- `close` loses no descriptor. -/
lemma accounts_close (h : SingleOwner t.hold t.live) (hp : t.sockets p = some s) :
    Accounts t True (t.set p (some (s.close t.files).1) (s.close t.files).2) := by
  rcases s.close_cases t.files with ⟨hnone, hsame⟩ | ⟨fd, hsome, hnone, hfiles⟩
  · rw [hsame]
    exact .same h (hold_set_self (s := some s) (hold_of_some hp).symm _) rfl
  · refine .close h (p := p) ((hold_of_some hp).trans hsome) ?_ ?_
    · rw [hold_set, Option.bind_some, hnone]
    · show {x | (s.close t.files).2 x = .taken} = _
      rw [hfiles]
      exact taken_update_of_ne (by decide)

/-- `register_sock` closes the old descriptor before it takes the new one. -/
lemma accounts_registerSock (h : SingleOwner t.hold t.live) (hp : t.sockets p = some s) {fd : ℕ}
    (hfd : t.files fd = .fresh) :
    Accounts t True
      (t.set p (some (s.registerSock fd t.files).1) (s.registerSock fd t.files).2.1) := by
  by_cases hle : (fd : ℤ) ≤ 0
  · rw [UTcpSocket.registerSock, if_pos hle]
    exact .same h (hold_set_self (s := some s) (hold_of_some hp).symm _) rfl
  · have hclose := accounts_close h hp
    have hnone : (s.close t.files).1.held = none := by
      rcases s.close_cases t.files with ⟨hnone, hsame⟩ | ⟨_, -, hnone, -⟩
      · rw [hsame]
        exact hnone
      · exact hnone
    have hfresh : (s.close t.files).2 fd = .fresh := by
      rcases s.close_cases t.files with ⟨-, hsame⟩ | ⟨fd₀, hsome, -, hfiles⟩
      · rw [hsame]
        exact hfd
      · have htaken : t.files fd₀ = .taken := h.live p fd₀ ((hold_of_some hp).trans hsome)
        have hne : fd ≠ fd₀ := fun heq => by
          rw [heq, htaken] at hfd
          cases hfd
        rw [hfiles, Function.update_of_ne hne]
        exact hfd
    have hgive := accounts_give (p := p)
      (s := { (s.close t.files).1 with mSock := fd, mStatus := .connected }) hclose.exclusive
      hfresh rfl
    have hset : (t.set p (some (s.close t.files).1) (s.close t.files).2).hold p = none := by
      rw [hold_set, Function.update_self, Option.bind_some, hnone]
    have htwo := hclose.trans (.of_true hset hgive)
    rw [UTcpSocket.registerSock, if_neg hle]
    rwa [set, set, Function.update_idem] at htwo

/-- **Every call** accounts for the descriptors, and loses one unless it meets `Released`. Most
change neither the table nor the owner; a descriptor is lost where a socket that holds one gets
another, or goes out of use. -/
lemma accounts_call (h : SingleOwner t.hold t.live) {c : SockCall} (hg : Given t c)
    (hs : t.call c = some t') : Accounts t (Released t c) t' := by
  cases c with
  | new p reason =>
      obtain ⟨hfree, rfl⟩ : t.sockets p = none ∧ _ = t' := by
        simpa [call] using hs
      exact .same h (hold_set_self (s := some (.new reason)) (by rw [hold, hfree]; rfl) _) rfl
  | delete p =>
      obtain ⟨s, -, rfl⟩ := Option.map_eq_some_iff.mp hs
      exact .drop h (hold_set ..) rfl
  | accept fd =>
      obtain ⟨hclosed, rfl⟩ : t.files fd = .closed ∧ _ = t' := by simpa [call] using hs
      exact .same h rfl (taken_update_of_not (by decide) (by rw [hclosed]; decide))
  | giveBack fd =>
      obtain ⟨hfresh, rfl⟩ : t.files fd = .fresh ∧ _ = t' := by simpa [call] using hs
      exact .same h rfl (taken_update_of_not (by decide) (by rw [hfresh]; decide))
  | bind p fd =>
      obtain ⟨s, -, rfl⟩ := Option.map_eq_some_iff.mp hs
      exact accounts_give h hg rfl
  | connect p io =>
      rw [call] at hs
      split_ifs at hs with hio
      obtain ⟨s, -, rfl⟩ := Option.map_eq_some_iff.mp hs
      -- `connect` overwrites the descriptor of the socket, also where it fails
      rcases s.connect_cases hio with ⟨hnone, hfiles⟩ | ⟨fd, hfd, hsome, hfiles, -⟩
      · refine .drop h ?_ hfiles
        rw [hold_set, Option.bind_some, hnone]
      · exact accounts_take (s := some _) h (by rw [hfd]; decide) hsome hfiles
  | registerSock p fd =>
      obtain ⟨s, hp, rfl⟩ := Option.map_eq_some_iff.mp hs
      exact accounts_registerSock h hp hg
  | recv p len answer =>
      obtain ⟨s, hp, rfl⟩ := Option.map_eq_some_iff.mp hs
      refine .same h (hold_set_self (s := some _) ?_ _) rfl
      rw [Option.bind_some, hold_of_some hp, UTcpSocket.held_congr (s.mSock_recv len answer)]
  | send p buf answer =>
      obtain ⟨s, hp, rfl⟩ := Option.map_eq_some_iff.mp hs
      refine .same h (hold_set_self (s := some _) ?_ _) rfl
      rw [Option.bind_some, hold_of_some hp, UTcpSocket.held_congr (s.mSock_send buf answer)]
  | close p =>
      obtain ⟨s, hp, rfl⟩ := Option.map_eq_some_iff.mp hs
      exact accounts_close h hp
  | createSocket p reason io =>
      obtain ⟨⟨hfree, hio⟩, rfl⟩ : (t.sockets p = none ∧ io.Fresh t.files) ∧ _ = t' := by
        simpa [call] using hs
      -- the object is new, so there was no descriptor that it could lose
      have hnone : t.hold p = none := by rw [hold, hfree, Option.bind_none]
      rcases createSocket_cases reason hio with ⟨hheld, hfiles⟩ | ⟨fd, hfd, hsome, hfiles⟩
      · exact .same h (hold_set_self (hheld.trans hnone.symm) _) hfiles
      · exact .of_true hnone (accounts_take h (by rw [hfd]; decide) hsome hfiles)

end SockTable

/-! ### Runs -/

/-- In every reached state a descriptor has one owner at most. -/
lemma exclusive_of_given {t : SockTable} (h : sockMachine.Reach Given t) :
    SingleOwner t.hold t.live := by
  refine h.invariant (I := fun t => SingleOwner t.hold t.live) ?_ fun t c t' _ hI hg hs =>
    (SockTable.accounts_call hI hg hs).exclusive
  exact ⟨fun p fd hp => absurd hp.symm (Option.some_ne_none fd),
    fun p q fd hp => absurd hp.symm (Option.some_ne_none fd)⟩

/-- **Every descriptor is accounted for.**  In every run in which `bind` and `register_sock` are
given a descriptor that `::accept` has returned, once, a descriptor that a socket holds is open
and no other socket holds it, so no call reads, writes or closes another's.  And at the end every
open descriptor that was given to a socket is held by one exactly if every `bind`, `connect` and
`delete` of the run met a socket that held none: `close` and `register_sock` release the old one
first, and `create_socket` releases it when it fails. -/
theorem descriptors_accounted_iff {cs : List SockCall} {t : SockTable}
    (hrun : sockMachine.run cs sockMachine.init = some t)
    (hgiven : sockMachine.GuardedRun Given cs sockMachine.init) :
    (∀ p fd, t.hold p = some fd → t.files fd = .taken ∧ ∀ q, t.hold q = some fd → q = p) ∧
      ((∀ fd, t.files fd = .taken → ∃ p, t.hold p = some fd) ↔
        sockMachine.GuardedRun Released cs sockMachine.init) := by
  have hreach : sockMachine.Reach Given sockMachine.init := .init
  have hexcl := exclusive_of_given (hreach.run hgiven hrun)
  refine ⟨fun p fd hp => ⟨hexcl.live p fd hp, fun q hq => hexcl.unique q p fd hq hp⟩, ?_⟩
  have hkept := hreach.kept_iff (P := fun t => NoneLost t.hold t.live) (T := Released) hgiven hrun
    fun t c t' ht hg hs => (SockTable.accounts_call (exclusive_of_given ht) hg hs).noneLost
  have hinit : NoneLost sockMachine.init.hold sockMachine.init.live :=
    fun fd hfd => by cases hfd
  exact hkept.trans (and_iff_right hinit)

/-- A second `connect` on a socket that has a descriptor loses it. -/
theorem descriptors_accounted_iff_twice : ∃ t fd,
    sockMachine.run [.createSocket 0 0 ⟨.ok 3, none, none⟩, .connect 0 ⟨.ok 4, none, none⟩]
        sockMachine.init = some t ∧ t.hold 0 = some 4 ∧
      t.files fd = .taken ∧ ∀ p, t.hold p ≠ some fd := by
  have hrun : (sockMachine.run [.createSocket 0 0 ⟨.ok 3, none, none⟩,
      .connect 0 ⟨.ok 4, none, none⟩] sockMachine.init).any
        (fun t => decide (t.hold 0 = some 4)) = true := by decide +kernel
  obtain ⟨t, ht, hheld⟩ := (Option.any_eq_true _ _).mp hrun
  obtain ⟨-, hiff⟩ := descriptors_accounted_iff ht
    fun _ _ => ⟨trivial, fun _ _ => ⟨trivial, trivial⟩⟩
  obtain ⟨u, hu, hrest⟩ := Option.bind_eq_some_iff.mp ht
  obtain ⟨u', hu', -⟩ := Option.bind_eq_some_iff.mp hrest
  have hfirst : u.hold 0 = some 3 := by
    have hall : (sockMachine.step (.createSocket 0 0 ⟨.ok 3, none, none⟩) sockMachine.init).all
        (fun u => decide (u.hold 0 = some 3)) = true := by decide +kernel
    rw [hu, Option.all_some] at hall
    exact of_decide_eq_true hall
  have hlost : ¬ ∀ fd, t.files fd = .taken → ∃ p, t.hold p = some fd := by
    rw [hiff]
    intro hguard
    have hnone : u.hold 0 = none := ((hguard u hu).2 u' hu').1
    rw [hfirst] at hnone
    cases hnone
  obtain ⟨fd, hfd⟩ := not_forall.mp hlost
  obtain ⟨htaken, hfree⟩ := Classical.not_imp.mp hfd
  exact ⟨t, fd, ht, of_decide_eq_true hheld, htaken, not_exists.mp hfree⟩

end Epbs
