/-
`eTransfer::select` poll by poll, with everything a poll sees as an answer of its own: the
sockets' errors and their readiness may be others each time.

* `View`: what a poll sees; `pushAvailable`, `availableSockets`: the loop of
  `has_available_sockets`, which pushes to `dst` and counts;
* `waitLoop`, `selectRun`: `select`, with the transfer as each poll found it;
  `select_eq_selectRun`: the `select` of the service loops is one of its runs;
* `reported`: what a poll has to report, and `availableSockets_eq`: it is what is pushed;
* `ReportsReady`, `select_reports_ready`: `dst` is what the last poll reports.
-/
import Epbs.Transfer.Calls

namespace Epbs

/-! ### The polls -/

/-- What one poll sees: the sockets in error, and those that are ready. -/
structure View where
  isError : Ptr → Bool
  canRead : Ptr → Bool
  canWrite : Ptr → Bool

namespace ETransfer

/-- What a poll sees if only the kernel changes its answers. -/
def view (t : ETransfer) (poll : Poll) : View where
  isError p := (t.sock p).isError
  canRead := t.canRead poll
  canWrite := t.canWrite poll

/-- `can_read` in `has_available_sockets`: the listener is ready when a connection waits. -/
def canTake (t : ETransfer) (view : View) (p : Ptr) : Bool :=
  if p = t.mTcpListener then !t.mTcpAcceptList.isEmpty else view.canRead p

/-- The body of the loop of `has_available_sockets`, on `dst` and `count`. -/
def pushAvailable (t : ETransfer) (view : View) (found : List Upoll × ℕ) (it : Upoll) :
    List Upoll × ℕ :=
  if view.isError it.usock then
    (found.1 ++ [{ it with events := upollErrorT }], found.2 + 1)
  else
    let found :=
      if it.has upollWriteT && view.canWrite it.usock then
        (found.1 ++ [{ it with events := upollWriteT }], found.2 + 1)
      else found
    if it.has upollReadT && t.canTake view it.usock then
      (found.1 ++ [{ it with events := upollReadT }], found.2 + 1)
    else found

/-- **`has_available_sockets`**: `dst` and the count. -/
def availableSockets (t : ETransfer) (view : View) (dst src : List Upoll) : List Upoll × ℕ :=
  src.foldl (t.pushAvailable view) (dst, 0)

/-- A run of `select`: the transfer as each poll found it, `dst` and the result. -/
structure SelectRun where
  polled : List ETransfer
  dst : List Upoll
  result : ℕ

/-- **The second loop of `select`**, entered with `wait_ret` at its `k`-th poll. -/
def waitLoop (t : ETransfer) (views : ℕ → View) (src : List Upoll) :
    ℕ → ℕ → List Upoll → SelectRun
  | 0, k, dst =>
      let found := t.availableSockets (views k) dst src
      ⟨[t], found.1, found.2⟩
  | waitRet + 1, k, dst =>
      let found := t.availableSockets (views k) dst src
      if found.2 = 0 then
        let run := t.waitLoop views src waitRet (k + 1) found.1
        { run with polled := t :: run.polled }
      else ⟨[t], found.1, found.2⟩

/-- **`select`**, which clears the `dst` it is given. -/
def selectRun (t : ETransfer) (views : ℕ → View) (_dst src : List Upoll) : SelectRun :=
  let found := t.availableSockets (views 0) [] src
  if 0 < found.2 then ⟨[t], found.1, 1⟩
  else
    let run := (t.setNeeds src).waitLoop views src 1 1 found.1
    { run with polled := t :: run.polled }

/-- **What a poll has to report** of an entry. -/
def reported (t : ETransfer) (view : View) (it : Upoll) : List Upoll :=
  if view.isError it.usock then [⟨it.usock, upollErrorT, it.pointer⟩]
  else
    (if it.has upollWriteT && view.canWrite it.usock then
      [⟨it.usock, upollWriteT, it.pointer⟩] else []) ++
    (if it.has upollReadT && t.canTake view it.usock then
      [⟨it.usock, upollReadT, it.pointer⟩] else [])

/-- What a poll has to report of a list. -/
def report (t : ETransfer) (view : View) (src : List Upoll) : List Upoll :=
  src.flatMap (t.reported view)

section Polls

variable (t : ETransfer) (view : View) (views : ℕ → View)

/-- An entry pushes what is to be reported of it, and counts it. -/
lemma pushAvailable_eq (found : List Upoll × ℕ) (it : Upoll) :
    t.pushAvailable view found it =
      (found.1 ++ t.reported view it, found.2 + (t.reported view it).length) := by
  rw [pushAvailable, reported]
  split_ifs <;> simp

/-- **A poll pushes what is to be reported**, behind what was in `dst`. -/
lemma availableSockets_eq (dst src : List Upoll) :
    t.availableSockets view dst src =
      (dst ++ src.flatMap (t.reported view), (src.flatMap (t.reported view)).length) := by
  have hfold : ∀ (src : List Upoll) (found : List Upoll × ℕ),
      src.foldl (t.pushAvailable view) found =
        (found.1 ++ src.flatMap (t.reported view),
          found.2 + (src.flatMap (t.reported view)).length) := by
    intro src
    induction src with
    | nil => simp
    | cons it src ih =>
        intro found
        rw [List.foldl_cons, ih, pushAvailable_eq, List.flatMap_cons, List.append_assoc,
          List.length_append, add_assoc]
  rw [availableSockets, hfold, zero_add]

lemma availableSockets_nil (src : List Upoll) :
    t.availableSockets view [] src = (t.report view src, (t.report view src).length) := by
  rw [availableSockets_eq, List.nil_append, report]

/-- The flags do not matter to what is reported. -/
lemma reported_setNeeds (src : List Upoll) : (t.setNeeds src).reported view = t.reported view := by
  have htouch := touches_setNeeds t src
  funext it
  rw [reported, reported, canTake, canTake, htouch.mTcpListener, htouch.mTcpAcceptList]

/-- **The second loop** ends with the first poll that has something to report, or with the last. -/
lemma waitLoop_spec (src : List Upoll) (waitRet k : ℕ) :
    ∃ n ≤ waitRet, t.waitLoop views src waitRet k [] =
        ⟨List.replicate (n + 1) t, t.report (views (k + n)) src,
          (t.report (views (k + n)) src).length⟩ ∧
      (∀ j < n, t.report (views (k + j)) src = []) ∧
      (n < waitRet → t.report (views (k + n)) src ≠ []) := by
  induction waitRet generalizing k with
  | zero =>
      refine ⟨0, le_rfl, ?_, fun j hj => absurd hj j.not_lt_zero, fun h => absurd h (lt_irrefl 0)⟩
      rw [waitLoop, availableSockets_nil]
      rfl
  | succ waitRet ih =>
      rw [waitLoop, availableSockets_nil]
      simp only [List.length_eq_zero_iff]
      split_ifs with hnone
      · obtain ⟨n, hn, hrun, hbefore, hlast⟩ := ih (k + 1)
        have hshift : ∀ j, k + 1 + j = k + (j + 1) := fun j => by omega
        simp only [hshift] at hrun hbefore hlast
        refine ⟨n + 1, by omega, ?_, fun j hj => ?_, fun h => hlast (by omega)⟩
        · rw [hnone, hrun]
          rfl
        · cases j with
          | zero => exact hnone
          | succ j => exact hbefore j (by omega)
      · exact ⟨0, Nat.zero_le _, rfl, fun j hj => absurd hj j.not_lt_zero, fun _ => hnone⟩

/-- **The polls of `select`**: the first one on the transfer as it was, the others on the
transfer with the events asked for noted in its sockets. -/
lemma selectRun_spec (dst src : List Upoll) :
    ∃ n ≤ 2, (t.selectRun views dst src).polled =
        t :: List.replicate n (t.setNeeds src) ∧
      (t.selectRun views dst src).dst = t.report (views n) src ∧
      (0 < (t.selectRun views dst src).result ↔ t.report (views n) src ≠ []) ∧
      (∀ j < n, t.report (views j) src = []) ∧
      (n < 2 → t.report (views n) src ≠ []) := by
  rw [selectRun, availableSockets_nil]
  simp only [List.length_pos_iff]
  split_ifs with hfound
  · exact ⟨0, Nat.zero_le _, rfl, rfl, iff_of_true Nat.one_pos hfound,
      fun j hj => absurd hj j.not_lt_zero, fun _ => hfound⟩
  · rw [not_not] at hfound
    obtain ⟨n, hn, hrun, hbefore, hlast⟩ := (t.setNeeds src).waitLoop_spec views src 1 1
    have hsame : ∀ view, (t.setNeeds src).report view src = t.report view src := by
      intro view
      rw [report, report, reported_setNeeds]
    simp only [hsame, add_comm 1] at hrun hbefore hlast
    rw [hfound, hrun]
    refine ⟨n + 1, by omega, rfl, rfl, List.length_pos_iff, fun j hj => ?_,
      fun h => hlast (by omega)⟩
    cases j with
    | zero => exact hfound
    | succ j => exact hbefore j (by omega)

end Polls

/-- Flags do not matter to what a poll sees. -/
lemma view_setNeeds (t : ETransfer) (src : List Upoll) (poll : Poll) :
    (t.setNeeds src).view poll = t.view poll := by
  have htouch := touches_setNeeds t src
  simp only [view, View.mk.injEq]
  refine ⟨funext fun p => ?_, funext fun p => ?_, funext fun p => ?_⟩
  · rw [UTcpSocket.isError, UTcpSocket.isError, htouch.sock_mStatus (Set.notMem_empty p)]
  · rw [canRead, canRead, htouch.sock_mSock]
  · rw [canWrite, canWrite, htouch.sock_mSock]

/-- A poll of the service loops finds what it has to report. -/
lemma hasAvailableSockets_eq_report (t : ETransfer) (poll : Poll) (src : List Upoll) :
    t.hasAvailableSockets poll [] src =
      (t.report (t.view poll) src, (t.report (t.view poll) src).length) :=
  hasAvailableSockets_nil t poll src

/-- The second loop of the service loops is the one with views. -/
lemma pollLoop_eq_waitLoop (t : ETransfer) (polls : ℕ → Poll) (src : List Upoll)
    (waitRet k : ℕ) :
    t.pollLoop polls src waitRet k [] =
      ((t.waitLoop (fun k => t.view (polls k)) src waitRet k []).dst,
        (t.waitLoop (fun k => t.view (polls k)) src waitRet k []).result) := by
  induction waitRet generalizing k with
  | zero =>
      rw [pollLoop, waitLoop, hasAvailableSockets_eq_report, availableSockets_nil]
  | succ waitRet ih =>
      rw [pollLoop, waitLoop, hasAvailableSockets_eq_report, availableSockets_nil]
      simp only [List.length_eq_zero_iff]
      split_ifs with hnone
      · rw [hnone]
        exact ih (k + 1)
      · rfl

/-- **The `select` of the service loops** is the run in which only the kernel's answers
differ from poll to poll. -/
lemma select_eq_selectRun (t : ETransfer) (polls : ℕ → Poll) (dst src : List Upoll) :
    t.select polls src =
      ((t.selectRun (fun k => t.view (polls k)) dst src).polled.getLast?.getD t,
        (t.selectRun (fun k => t.view (polls k)) dst src).dst,
        (t.selectRun (fun k => t.view (polls k)) dst src).result) := by
  rw [select, selectRun, hasAvailableSockets_eq_report, availableSockets_nil]
  simp only [List.length_pos_iff]
  split_ifs with hfound
  · rfl
  · rw [not_not] at hfound
    have hviews : (fun k => t.view (polls k)) = fun k => (t.setNeeds src).view (polls k) :=
      funext fun k => (view_setNeeds t src (polls k)).symm
    obtain ⟨n, -, hrun, -⟩ :=
      (t.setNeeds src).waitLoop_spec (fun k => (t.setNeeds src).view (polls k)) src 1 1
    rw [hfound, pollLoop_eq_waitLoop, hviews, hrun]
    simp [List.getLast?_cons, List.getLast?_replicate]

/-! ### The events asked for -/

section Needs

variable {t : ETransfer} {src : List Upoll}

/-- A socket that is not asked about keeps its flags. -/
lemma sockets_setNeeds_of_notMem {p : Ptr} (hp : p ∉ src.map (·.usock)) :
    (t.setNeeds src).sockets p = t.sockets p := by
  induction src generalizing t with
  | nil => rfl
  | cons it src ih =>
      rw [List.map_cons, List.mem_cons, not_or] at hp
      rw [setNeeds, List.foldl_cons, ← setNeeds, ih hp.2, sockets_setSock, if_neg hp.1]

/-- **The flags of a socket** are the events asked for, if no other entry is about it. -/
lemma needs_setNeeds (hdistinct : (src.map (·.usock)).Nodup) {it : Upoll} (hit : it ∈ src)
    (hsome : (t.sockets it.usock).isSome) :
    ((t.setNeeds src).sock it.usock).mBneedreadselect = it.has upollReadT ∧
      ((t.setNeeds src).sock it.usock).mBneedwriteselect = it.has upollWriteT := by
  induction src generalizing t with
  | nil => cases hit
  | cons it' src ih =>
      rw [List.map_cons, List.nodup_cons] at hdistinct
      rw [setNeeds, List.foldl_cons, ← setNeeds]
      rcases List.mem_cons.mp hit with rfl | hmem
      · obtain ⟨s, hs⟩ := Option.isSome_iff_exists.mp hsome
        rw [sock, sockets_setNeeds_of_notMem hdistinct.1, sockets_setSock, if_pos rfl, hs]
        exact ⟨rfl, rfl⟩
      · have hne : it.usock ≠ it'.usock :=
          fun heq => hdistinct.1 (heq ▸ List.mem_map_of_mem hmem)
        refine ih hdistinct.2 hmem ?_
        rwa [sockets_setSock, if_neg hne]

end Needs

/-- **`select` reports exactly the ready events**: its result is positive exactly when `dst` is
not empty, and `dst` is what its last poll reports; the polls before had nothing to report, and
another one is made only then; and where the first has nothing, every later poll finds the
events asked for noted in the sockets. -/
structure ReportsReady (t : ETransfer) (views : ℕ → View) (src : List Upoll) (run : SelectRun) :
    Prop where
  positive : 0 < run.result ↔ run.dst ≠ []
  last : run.dst = t.report (views (run.polled.length - 1)) src
  before : ∀ k, k + 1 < run.polled.length → t.report (views k) src = []
  polls : 0 < run.polled.length ∧ run.polled.length ≤ 3
  again : run.polled.length < 3 → run.dst ≠ []
  needs : t.report (views 0) src = [] → 1 < run.polled.length ∧
    ∀ t' ∈ run.polled.tail, ∀ it ∈ src,
      (t'.sock it.usock).mBneedreadselect = it.has upollReadT ∧
        (t'.sock it.usock).mBneedwriteselect = it.has upollWriteT

end ETransfer

open ETransfer

/-- **`select` reports exactly the ready events** of the sockets of a list, all different, for
every answer of theirs at each poll and every prior `dst`. -/
theorem select_reports_ready (t : ETransfer) (views : ℕ → View) (dst : List Upoll)
    {src : List Upoll} (hdistinct : (src.map (·.usock)).Nodup)
    (hsockets : ∀ it ∈ src, (t.sockets it.usock).isSome) :
    t.ReportsReady views src (t.selectRun views dst src) := by
  obtain ⟨n, hn, hpolled, hdst, hpositive, hbefore, hlast⟩ := t.selectRun_spec views dst src
  have hlen : (t.selectRun views dst src).polled.length = n + 1 := by
    rw [hpolled, List.length_cons, List.length_replicate]
  refine ⟨hdst ▸ hpositive, ?_, fun k hk => hbefore k (by omega), by omega,
    fun h => hdst ▸ hlast (by omega), fun hnone => ⟨?_, fun t' ht' it hit => ?_⟩⟩
  · rw [hlen, hdst]
    rfl
  · rcases Nat.eq_zero_or_pos n with rfl | hpos
    · exact absurd hnone (hlast Nat.two_pos)
    · omega
  · rw [hpolled, List.tail_cons] at ht'
    rw [List.eq_of_mem_replicate ht']
    exact needs_setNeeds hdistinct hit (hsockets it hit)

/-- A listener and two connections behind it. -/
def connectedTwo : ETransfer :=
  { opened 3 100 0 with
    sockets := fun p =>
      if p = 100 then some (.new 0)
      else if p = 101 then some ⟨5, .connected, 0, false, false⟩
      else if p = 102 then some ⟨6, .connected, 0, false, false⟩ else none }

/-- At the first poll nothing is ready; at the next the first connection is in error, and from
then on the second can be read. -/
def lateAnswers : ℕ → View
  | 0 => ⟨fun _ => false, fun _ => false, fun _ => false⟩
  | 1 => ⟨fun p => p = 101, fun p => p = 102, fun p => p = 101⟩
  | _ => ⟨fun _ => false, fun p => p = 102, fun _ => false⟩

/-- What the service loops ask for: connections, and what the clients send and can take. -/
def threeEntries : List Upoll :=
  [⟨100, upollReadT, none⟩, ⟨101, upollReadT ||| upollWriteT, none⟩, ⟨102, upollReadT, none⟩]

/-- The second poll reports an error and a read, and nothing that was in `dst` before. -/
theorem select_reports_ready_late :
    (connectedTwo.selectRun lateAnswers [⟨100, upollReadT, none⟩] threeEntries).dst =
        [⟨101, upollErrorT, none⟩, ⟨102, upollReadT, none⟩] ∧
      connectedTwo.ReportsReady lateAnswers threeEntries
        (connectedTwo.selectRun lateAnswers [⟨100, upollReadT, none⟩] threeEntries) :=
  ⟨by decide, select_reports_ready connectedTwo lateAnswers [⟨100, upollReadT, none⟩] (by decide)
    (by decide)⟩

end Epbs
