/-
`eTransfer::init_tcp`: the listening socket, with up to five attempts to bind it.

* `BindAnswer`, `InitIo`: what the calls answer;
* `bindLoop`, `initTcp`: the attempts, which draw another port when one is in use, and the
  whole function;
* `Working`, `ListensOrFails`: a listener on the requested port, and success for no other;
* `attempted_bindLoop`: none of the attempts succeeds, or a first one does;
* `init_tcp_listens_iff`: the answers for which success means a working listener.
-/
import Epbs.Transfer.ETransfer

namespace Epbs

/-! ### The calls -/

/-- What `GetLastErr` returns after a call that failed: `errno`, which is not 0 then. -/
abbrev Errno := {e : ℤ // e ≠ 0}

/-- A port that the kernel chooses. -/
abbrev FreePort := {p : ℤ // 0 < p ∧ p < 65536}

/-- The answer of `::bind`: the port that the kernel chooses if it is asked to, `EADDRINUSE`
with what `CUtility::Random` returns then, or another error. -/
inductive BindAnswer where
  | bound (free : FreePort)
  | inUse (random : ℤ)
  | failed

/-- The answers during one call of `init_tcp`: of `socket`, of the two `setsockopt` and
`setSockNonBlocking`, of `bind` at each attempt, of `listen`, and of the allocation. -/
structure InitIo where
  socket : Except Errno ℕ
  reuseAddr : Bool
  nonBlocking : Bool
  rcvBuf : Bool
  bind : ℕ → BindAnswer
  listen : Bool
  addr : Ptr

/-- A socket of the kernel: the port it is bound to, and whether it listens. -/
structure KernelSocket where
  port : Option ℤ
  listening : Bool
  deriving DecidableEq

/-- What `init_tcp` works on: three fields of the transfer, and the open descriptors. -/
structure TcpState where
  mTcpSock : ℤ
  mTcpPort : ℤ
  mTcpListener : Option Ptr
  fds : ℤ → Option KernelSocket

/-! ### `init_tcp` -/

/-- The port in `htons(port)`; the kernel chooses one for 0. -/
def boundPort (port : ℤ) (free : FreePort) : ℤ :=
  if port % 65536 = 0 then free else port % 65536

/-- `10000+(CUtility::Random()%10000)`. -/
def randomPort (random : ℤ) : ℤ := 10000 + random.tmod 10000

/-- **The attempts to bind**, with `try_limit` of them left, the next one being the `k`-th: the
attempts left, the port, and the socket. -/
def bindLoop (io : InitIo) : ℕ → ℕ → ℤ → KernelSocket → ℕ × ℤ × KernelSocket
  | 0, _, port, sock => (0, port, sock)
  | tryLimit + 1, k, port, sock =>
      match io.bind k with
      | .bound free => (tryLimit + 1, port, ⟨some (boundPort port free), io.listen⟩)
      | .inUse random => bindLoop io tryLimit (k + 1) (randomPort random) sock
      | .failed => bindLoop io tryLimit (k + 1) port sock

/-- **`init_tcp`** with its result.  The errors of `setsockopt`, `setSockNonBlocking`, `bind`
and `listen` go to a variable that is not read. -/
def initTcp (io : InitIo) (port : ℤ) (s : TcpState) : TcpState × ℤ :=
  match io.socket with
  | .error e => ({ s with mTcpSock := -1 }, e)
  | .ok fd =>
      let (tryLimit, boundTo, sock) := bindLoop io 5 0 port ⟨none, false⟩
      if tryLimit = 0 then
        -- the socket was open until here
        ({ s with
          mTcpSock := -1
          fds := Function.update (Function.update s.fds fd (some sock)) fd none }, -1)
      else
        ({ mTcpSock := fd
           mTcpPort := boundTo
           mTcpListener := some io.addr
           fds := Function.update s.fds fd (some sock) }, 0)

/-! ### The property -/

/-- **A working listener** on a port. -/
def Working (port : ℤ) (s : TcpState) : Prop :=
  0 ≤ s.mTcpSock ∧ s.fds s.mTcpSock = some ⟨some port, true⟩ ∧ s.mTcpPort = port

/-- **`init_tcp` reports success for a working listener only**, and otherwise it leaves no
descriptor open. -/
structure ListensOrFails (io : InitIo) (port : ℤ) (s : TcpState) : Prop where
  success : (initTcp io port s).2 = 0 ↔ Working port (initTcp io port s).1
  failure : ¬Working port (initTcp io port s).1 →
    (initTcp io port s).2 ≠ 0 ∧ (initTcp io port s).1.mTcpSock = -1 ∧
      (initTcp io port s).1.fds = s.fds

namespace InitIo

/-- The attempt succeeds. -/
def Binds (io : InitIo) (k : ℕ) : Prop := ∃ free, io.bind k = .bound free

/-- The port drawn last before an attempt. -/
def drawn (io : InitIo) : ℕ → Option ℤ
  | 0 => none
  | k + 1 =>
      match io.bind k with
      | .inUse random => some (randomPort random)
      | .bound _ | .failed => io.drawn k

/-- The port asked for at an attempt. -/
def portAt (io : InitIo) (port : ℤ) (k : ℕ) : ℤ := (io.drawn k).getD port

/-- There is no socket, or no attempt succeeds; or the first attempt that succeeds is followed
by `listen`, and no port was drawn before it, or the requested port by chance. -/
def Lucky (io : InitIo) (port : ℤ) : Prop :=
  (∃ e, io.socket = .error e) ∨ (∀ k < 5, ¬io.Binds k) ∨
    ∃ k < 5, io.Binds k ∧ (∀ j < k, ¬io.Binds j) ∧ io.listen = true ∧
      (∀ drawn ∈ io.drawn k, drawn = port) ∧ 0 < port ∧ port < 65536

end InitIo

section Attempts

variable {io : InitIo} {port : ℤ}

/-- The bound port is the one asked for. -/
lemma boundPort_eq_iff {free : FreePort} :
    boundPort port free = port ↔ 0 < port ∧ port < 65536 := by
  have hfree := free.2
  rw [boundPort]
  split_ifs <;> omega

/-- What `n` attempts from the `k`-th on come to: none of them succeeds, or a first one does, on
the port asked for then. -/
inductive Attempted (io : InitIo) (port : ℤ) (k n : ℕ) (r : ℕ × ℤ × KernelSocket) : Prop
  | none (hnone : ∀ j, k ≤ j → j < k + n → ¬io.Binds j) (hleft : r.1 = 0) : Attempted io port k n r
  | first {j : ℕ} {free : FreePort} (hlow : k ≤ j) (hhigh : j < k + n)
      (hbound : io.bind j = .bound free) (hbefore : ∀ i, k ≤ i → i < j → ¬io.Binds i)
      (hleft : r.1 ≠ 0)
      (hrest : r.2 = (io.portAt port j, ⟨some (boundPort (io.portAt port j) free), io.listen⟩)) :
      Attempted io port k n r

/-- An attempt that fails leaves the rest to the others. -/
lemma Attempted.step {k n : ℕ} {r : ℕ × ℤ × KernelSocket} (h : Attempted io port (k + 1) n r)
    (hk : ¬io.Binds k) : Attempted io port k (n + 1) r := by
  have hother : ∀ i, k ≤ i → (k + 1 ≤ i → ¬io.Binds i) → ¬io.Binds i := by
    intro i hlow hrest
    rcases hlow.eq_or_lt with rfl | hlt
    · exact hk
    · exact hrest hlt
  cases h with
  | none hnone hleft =>
      exact .none (fun j hlow hhigh => hother j hlow fun h => hnone j h (by omega)) hleft
  | first hlow hhigh hbound hbefore hleft hrest =>
      exact .first (by omega) (by omega) hbound
        (fun i hi hij => hother i hi fun h => hbefore i h hij) hleft hrest

/-- **The attempts** of the loop: after a port that is in use another one is drawn, and after any
other failure the same port is tried again. -/
lemma attempted_bindLoop (io : InitIo) (port : ℤ) (sock : KernelSocket) (tryLimit k : ℕ) :
    Attempted io port k tryLimit (bindLoop io tryLimit k (io.portAt port k) sock) := by
  induction tryLimit generalizing k with
  | zero => exact .none (fun j hlow hhigh => absurd hhigh (not_lt.mpr hlow)) rfl
  | succ tryLimit ih =>
      have hothers : ∀ next, (∀ free, io.bind k ≠ .bound free) → io.portAt port (k + 1) = next →
          Attempted io port k (tryLimit + 1) (bindLoop io tryLimit (k + 1) next sock) := by
        rintro next hk rfl
        exact (ih (k + 1)).step fun ⟨free, hfree⟩ => hk free hfree
      rw [bindLoop]
      cases hbind : io.bind k with
      | bound free =>
          exact .first le_rfl (by omega) hbind (fun i hi hik => absurd hik (not_lt.mpr hi))
            (Nat.succ_ne_zero tryLimit) rfl
      | inUse random =>
          refine hothers _ (fun free hfree => ?_) ?_
          · rw [hbind] at hfree
            cases hfree
          · rw [InitIo.portAt, InitIo.drawn, hbind]
            rfl
      | failed =>
          refine hothers _ (fun free hfree => ?_) ?_
          · rw [hbind] at hfree
            cases hfree
          · rw [InitIo.portAt, InitIo.drawn, hbind, InitIo.portAt]

/-- The port asked for is the requested one if none was drawn, or that one. -/
lemma portAt_eq_iff {k : ℕ} : io.portAt port k = port ↔ ∀ drawn ∈ io.drawn k, drawn = port := by
  rw [InitIo.portAt]
  cases io.drawn k <;> simp

end Attempts

section Law

variable {io : InitIo} {port : ℤ} {s : TcpState}

/-- A failure that leaves nothing open is one. -/
lemma listensOrFails_of_failure (hret : (initTcp io port s).2 ≠ 0)
    (hsock : (initTcp io port s).1.mTcpSock = -1) (hfds : (initTcp io port s).1.fds = s.fds) :
    ListensOrFails io port s := by
  have hnot : ¬Working port (initTcp io port s).1 := by
    rintro ⟨hpos, -⟩
    rw [hsock] at hpos
    norm_num at hpos
  exact ⟨iff_of_false hret hnot, fun _ => ⟨hret, hsock, hfds⟩⟩

/-- A success has to be a working listener. -/
lemma listensOrFails_iff_working (hret : (initTcp io port s).2 = 0) :
    ListensOrFails io port s ↔ Working port (initTcp io port s).1 :=
  ⟨fun h => h.success.mp hret, fun h => ⟨iff_of_true hret h, fun hnot => absurd h hnot⟩⟩

/-- The first attempt that succeeds decides. -/
lemma lucky_iff_of_first {fd k : ℕ} {free : FreePort} (hsocket : io.socket = .ok fd) (hk : k < 5)
    (hbound : io.bind k = .bound free) (hbefore : ∀ i < k, ¬io.Binds i) :
    io.Lucky port ↔ io.listen = true ∧ io.portAt port k = port ∧ 0 < port ∧ port < 65536 := by
  have hbinds : io.Binds k := ⟨free, hbound⟩
  rw [portAt_eq_iff]
  constructor
  · rintro (⟨e, he⟩ | hnone | ⟨j, -, hj, hfirst, hlisten, hport, hrange⟩)
    · rw [hsocket] at he
      cases he
    · exact absurd hbinds (hnone k hk)
    · obtain rfl : j = k := by
        rcases lt_trichotomy j k with hlt | heq | hgt
        · exact absurd hj (hbefore j hlt)
        · exact heq
        · exact absurd hbinds (hfirst k hgt)
      exact ⟨hlisten, hport, hrange⟩
  · rintro ⟨hlisten, hport, hrange⟩
    exact .inr (.inr ⟨k, hk, hbinds, hbefore, hlisten, hport, hrange⟩)

end Law

/-- **`init_tcp` reports success for a working listener only** exactly when there is no socket to
bind, or no attempt to bind it succeeds, or the first that does is for the requested port and
`listen` succeeds. -/
theorem init_tcp_listens_iff (io : InitIo) (port : ℤ) (s : TcpState)
    (hfresh : ∀ fd, io.socket = .ok fd → s.fds fd = none) :
    ListensOrFails io port s ↔ io.Lucky port := by
  cases hsocket : io.socket with
  | error e =>
      have hrun : initTcp io port s = ({ s with mTcpSock := -1 }, e.1) := by rw [initTcp, hsocket]
      refine iff_of_true (listensOrFails_of_failure ?_ ?_ ?_) (.inl ⟨e, hsocket⟩)
      · rw [hrun]
        exact e.2
      · rw [hrun]
      · rw [hrun]
  | ok fd =>
      -- the result is that of the attempts: all five fail, or one is the first that does not
      have hattempted := attempted_bindLoop io port ⟨none, false⟩ 5 0
      rw [show io.portAt port 0 = port from rfl] at hattempted
      set r := bindLoop io 5 0 port ⟨none, false⟩ with hr
      cases hattempted with
      | none hnone hleft =>
          have hrun : initTcp io port s = ({ s with
              mTcpSock := -1
              fds := Function.update (Function.update s.fds fd (some r.2.2)) fd none }, -1) := by
            rw [initTcp, hsocket]
            exact if_pos hleft
          refine iff_of_true (listensOrFails_of_failure ?_ ?_ ?_)
            (.inr (.inl fun k hk => hnone k (Nat.zero_le k) (by omega)))
          · rw [hrun]
            norm_num
          · rw [hrun]
          · rw [hrun, Function.update_idem, ← hfresh fd hsocket, Function.update_eq_self]
      | @first k free hlow hhigh hbound hbefore hleft hrest =>
          have hrun : initTcp io port s = ({
              mTcpSock := fd
              mTcpPort := r.2.1
              mTcpListener := some io.addr
              fds := Function.update s.fds fd (some r.2.2) }, 0) := by
            rw [initTcp, hsocket]
            exact if_neg hleft
          rw [listensOrFails_iff_working (by rw [hrun]),
            lucky_iff_of_first hsocket (by omega) hbound fun i hi => hbefore i (Nat.zero_le i) hi,
            hrun, Working, hrest]
          simp only [Function.update_self, Option.some.injEq, KernelSocket.mk.injEq]
          constructor
          · rintro ⟨-, ⟨hport, hlisten⟩, hsame⟩
            rw [hsame, boundPort_eq_iff] at hport
            exact ⟨hlisten, hsame, hport⟩
          · rintro ⟨hlisten, hsame, hrange⟩
            refine ⟨Int.natCast_nonneg fd, ⟨?_, hlisten⟩, hsame⟩
            rw [hsame, boundPort_eq_iff]
            exact hrange

/-- Before `init_tcp` nothing is open. -/
def noTcp : TcpState where
  mTcpSock := -1
  mTcpPort := 0
  mTcpListener := none
  fds _ := none

/-- A system in which every call succeeds. -/
def idleSystem : InitIo where
  socket := .ok 3
  reuseAddr := true
  nonBlocking := true
  rcvBuf := true
  bind _ := .bound ⟨32768, by norm_num⟩
  listen := true
  addr := 100

/-- A system in which the first attempt to bind fails. -/
def retriedSystem : InitIo :=
  { idleSystem with bind := fun k => if k = 0 then .failed else idleSystem.bind k }

/-- The second attempt leaves a working listener on the requested port. -/
theorem init_tcp_listens_iff_retried : ListensOrFails retriedSystem 4060 noTcp := by
  refine (init_tcp_listens_iff retriedSystem 4060 noTcp fun _ _ => rfl).mpr ?_
  have hfirst : ∀ j < 1, ¬retriedSystem.Binds j := by
    intro j hj hbinds
    obtain rfl : j = 0 := Nat.lt_one_iff.mp hj
    obtain ⟨free, hfree⟩ := hbinds
    cases hfree
  have hdrawn : ∀ drawn ∈ retriedSystem.drawn 1, drawn = 4060 := fun _ h =>
    absurd h (Option.not_mem_none _)
  exact .inr (.inr ⟨1, by norm_num, ⟨_, rfl⟩, hfirst, rfl, hdrawn, by norm_num, by norm_num⟩)

/-- A system in which `listen` fails. -/
def deafSystem : InitIo := { idleSystem with listen := false }

/-- **The failure of `listen` is lost**: `init_tcp` returns 0 for a socket that is bound to
`UDP_JOB_MONITOR_SRV_PORT_NUMBER` and does not listen. -/
theorem listen_failure_ignored :
    (initTcp deafSystem 4060 noTcp).2 = 0 ∧
      (initTcp deafSystem 4060 noTcp).1.fds 3 = some ⟨some 4060, false⟩ ∧
      ¬ListensOrFails deafSystem 4060 noTcp := by
  have hret : (initTcp deafSystem 4060 noTcp).2 = 0 := by decide
  have hsock : (initTcp deafSystem 4060 noTcp).1.fds (initTcp deafSystem 4060 noTcp).1.mTcpSock =
      some ⟨some 4060, false⟩ := by decide
  refine ⟨hret, hsock, fun h => ?_⟩
  obtain ⟨-, hworking, -⟩ := h.success.mp hret
  rw [hsock] at hworking
  cases hworking

/-- A system in which the requested port is in use. -/
def busySystem : InitIo :=
  { idleSystem with bind := fun k => if k = 0 then .inUse 7 else idleSystem.bind k }

-- another port is served then, and this is a success as well
example : (initTcp busySystem 4060 noTcp).2 = 0 ∧
    (initTcp busySystem 4060 noTcp).1.mTcpPort = 10007 := by
  decide

end Epbs
