/-
The tables of the job server (`libjobq.h`, `libjobq.c`, `libhost.h`,
`libhost.c`): the job ring `jobq` with its two indices, the counters
`jobnodes`, the node records `nodesstat` and `pcstat`, the host list `hostq`,
and their start values.

* `JobStat`, `HostStat`: the status constants, with the codes that travel in
  messages;
* `Server`: the tables, indexed by C `int`s; a read or a write outside an
  array has no meaning, and the steps that would make one are not defined
  (`inTable`);
* `sprintf`: the copy with which the server stores and reads back its strings,
  the string being the format; `sprintf_of_plain` says when it is a copy, and
  `count_sprintf_le` how many `%` are left of it;
* `configure`: the tables after `epbssrv_configure` and the start of `main`.
-/
import Mathlib.Tactic
import Mathlib.Data.List.TakeWhile
import Epbs.Machine.Printf

namespace Epbs

/-- A C string, without its terminating NUL. -/
abbrev Bytes := List UInt8

/-- `MAX_JOB_QUEUE`, the number of slots of the job ring. -/
def maxJobQueue : ℕ := 32

/-- `MAX_NUM_HOSTS`, the length of the node tables `pcstat` and `nodesstat`;
`hostq` has one entry more. -/
def maxNumHosts : ℕ := 2 * 2 + 1

/-- `JOB_STAT_*`. -/
inductive JobStat where
  | inqueue | running | finished | unknow
  deriving DecidableEq, Repr

/-- The code of a job status. -/
def JobStat.code : JobStat → ℤ
  | .inqueue => 1
  | .running => 2
  | .finished => 3
  | .unknow => 4

lemma JobStat.code_injective : Function.Injective JobStat.code := by
  intro stat stat' h
  cases stat <;> cases stat' <;> first | rfl | cases h

/-- `HOST_STAT_*`. -/
inductive HostStat where
  | busy | free | offline | online
  deriving DecidableEq, Repr

/-- The code of a host status. -/
def HostStat.code : HostStat → ℤ
  | .busy => 1
  | .free => 2
  | .offline => 3
  | .online => 4

lemma HostStat.code_injective : Function.Injective HostStat.code := by
  intro stat stat' h
  cases stat <;> cases stat' <;> first | rfl | cases h

/-- `batch_job_info`, without the two fields no code of the server writes
(`time0`, `tid`). -/
structure BatchJobInfo where
  pcomm : Bytes
  username : Bytes
  numReqNodes : ℤ
  time1 : ℤ
  time2 : ℤ
  time3 : ℤ
  jobStat : JobStat
  jobId : ℤ
  deriving DecidableEq

/-- `epbs_host_info`, without its unused resource fields.  The status is an
`int`: `epbs_host_status` stores whatever a report carries. -/
structure EpbsHostInfo where
  hostId : ℤ
  hostStat : ℤ
  ip : Bytes
  deriving DecidableEq

/-- The tables the threads of the master share. -/
structure Server where
  jobq : ℤ → BatchJobInfo
  jobnodes : ℤ → ℤ
  nodesstat : ℤ → ℤ
  pcstat : ℤ → HostStat
  hostq : ℤ → EpbsHostInfo
  jobHead : ℤ
  jobTail : ℤ

namespace Server

/-- A slot of the job ring is written. -/
def writeSlot (s : Server) (i : ℤ) (job : BatchJobInfo) : Server :=
  { s with jobq := Function.update s.jobq i job }

/-- `job_head = (job_head+1)%MAX_JOB_QUEUE`. -/
def advanceHead (s : Server) : Server := { s with jobHead := (s.jobHead + 1) % maxJobQueue }

/-- `job_tail = (job_tail+1)%MAX_JOB_QUEUE`. -/
def advanceTail (s : Server) : Server := { s with jobTail := (s.jobTail + 1) % maxJobQueue }

section Fields

variable (s : Server) (i : ℤ) (job : BatchJobInfo)

@[simp] lemma writeSlot_jobq : (s.writeSlot i job).jobq = Function.update s.jobq i job := rfl
@[simp] lemma writeSlot_jobnodes : (s.writeSlot i job).jobnodes = s.jobnodes := rfl
@[simp] lemma writeSlot_nodesstat : (s.writeSlot i job).nodesstat = s.nodesstat := rfl
@[simp] lemma writeSlot_pcstat : (s.writeSlot i job).pcstat = s.pcstat := rfl
@[simp] lemma writeSlot_jobHead : (s.writeSlot i job).jobHead = s.jobHead := rfl
@[simp] lemma writeSlot_jobTail : (s.writeSlot i job).jobTail = s.jobTail := rfl

@[simp] lemma advanceHead_jobq : s.advanceHead.jobq = s.jobq := rfl
@[simp] lemma advanceHead_jobnodes : s.advanceHead.jobnodes = s.jobnodes := rfl
@[simp] lemma advanceHead_nodesstat : s.advanceHead.nodesstat = s.nodesstat := rfl
@[simp] lemma advanceHead_pcstat : s.advanceHead.pcstat = s.pcstat := rfl
@[simp] lemma advanceHead_jobHead :
    s.advanceHead.jobHead = (s.jobHead + 1) % maxJobQueue := rfl
@[simp] lemma advanceHead_jobTail : s.advanceHead.jobTail = s.jobTail := rfl

@[simp] lemma advanceTail_jobq : s.advanceTail.jobq = s.jobq := rfl
@[simp] lemma advanceTail_jobnodes : s.advanceTail.jobnodes = s.jobnodes := rfl
@[simp] lemma advanceTail_nodesstat : s.advanceTail.nodesstat = s.nodesstat := rfl
@[simp] lemma advanceTail_pcstat : s.advanceTail.pcstat = s.pcstat := rfl
@[simp] lemma advanceTail_jobHead : s.advanceTail.jobHead = s.jobHead := rfl
@[simp] lemma advanceTail_jobTail :
    s.advanceTail.jobTail = (s.jobTail + 1) % maxJobQueue := rfl

end Fields

/-- A written slot that keeps a field keeps it in the whole ring. -/
lemma writeSlot_field {α : Type*} (s : Server) {i : ℤ} {job : BatchJobInfo}
    (f : BatchJobInfo → α) (hf : f job = f (s.jobq i)) (j : ℤ) :
    f ((s.writeSlot i job).jobq j) = f (s.jobq j) := by
  by_cases hij : j = i
  · rw [writeSlot_jobq, hij, Function.update_self, hf]
  · rw [writeSlot_jobq, Function.update_of_ne hij]

end Server

/-- The index `i` lies in an array of `n` entries. -/
def inTable (n : ℕ) (i : ℤ) : Prop := 0 ≤ i ∧ i < n

instance (n : ℕ) (i : ℤ) : Decidable (inTable n i) :=
  inferInstanceAs (Decidable (_ ∧ _))

/-! ### Copies through `sprintf` -/

export Printf (percent)

/-- `sprintf(buf, fmt, arg)` into a buffer of `size` bytes, and the string that is in
the buffer then: `none` if the output and its NUL do not fit.  A `%c` may write a NUL
of its own, which ends the string. -/
def sprintf (size : ℕ) (fmt : Bytes) (arg : ℤ) : Option Bytes :=
  ((Printf.expand (some arg) none fmt).filter fun out => out.length < size).map fun out =>
    out.takeWhile (· ≠ 0)

/-- What the string in the buffer is taken from. -/
lemma sprintf_cases {size : ℕ} {fmt str : Bytes} {arg : ℤ}
    (h : sprintf size fmt arg = some str) :
    ∃ out, Printf.expand (some arg) none fmt = some out ∧ out.length < size ∧
      str = out.takeWhile (· ≠ 0) := by
  obtain ⟨out, hout, rfl⟩ := Option.map_eq_some_iff.mp h
  obtain ⟨hexpand, hlen⟩ := Option.filter_eq_some_iff.mp hout
  exact ⟨out, hexpand, of_decide_eq_true hlen, rfl⟩

/-- The string has room for its NUL. -/
lemma sprintf_length_lt {size : ℕ} {fmt str : Bytes} {arg : ℤ}
    (h : sprintf size fmt arg = some str) : str.length < size := by
  obtain ⟨out, -, hlen, rfl⟩ := sprintf_cases h
  exact (List.takeWhile_sublist _).length_le.trans_lt hlen

/-- The string ends at the first NUL. -/
lemma sprintf_nul_free {size : ℕ} {fmt str : Bytes} {arg : ℤ}
    (h : sprintf size fmt arg = some str) : 0 ∉ str := by
  obtain ⟨out, -, -, rfl⟩ := sprintf_cases h
  intro hmem
  have hne := List.mem_takeWhile_imp hmem
  exact of_decide_eq_true hne rfl

/-- The percent signs of the string. -/
lemma count_sprintf_le {size : ℕ} {fmt str : Bytes} {arg : ℤ}
    (h : sprintf size fmt arg = some str) :
    2 * str.count percent ≤ fmt.count percent + if arg % 256 = 37 then 1 else 0 := by
  obtain ⟨out, hexpand, -, rfl⟩ := sprintf_cases h
  have hcount := Printf.count_expand_le hexpand
  have hprefix := (List.takeWhile_sublist (l := out) (· ≠ 0)).count_le percent
  simp only [Option.isSome_none, Bool.false_eq_true, if_false, Option.any_some,
    decide_eq_true_eq, Nat.add_zero] at hcount
  omega

/-- **When the copy is a copy**: no `%` in the string and room for its NUL. -/
lemma sprintf_of_plain {size : ℕ} {fmt : Bytes} (h : percent ∉ fmt) (hnul : 0 ∉ fmt)
    (hlen : fmt.length < size) (arg : ℤ) : sprintf size fmt arg = some fmt := by
  have hstr : fmt.takeWhile (· ≠ 0) = fmt :=
    List.takeWhile_eq_self_iff.mpr fun c hc => decide_eq_true fun h0 => hnul (h0 ▸ hc)
  rw [sprintf, Printf.expand_of_plain h, Option.filter_some, if_pos (decide_eq_true hlen),
    Option.map_some, hstr]

/-- A string without `%` is copied as it stands. -/
lemma eq_of_sprintf_plain {size : ℕ} {fmt str : Bytes} {arg : ℤ}
    (h : sprintf size fmt arg = some str) (hpercent : percent ∉ fmt) (hnul : 0 ∉ fmt) :
    str = fmt := by
  obtain ⟨out, hout, hlen, -⟩ := sprintf_cases h
  obtain rfl : fmt = out := Option.some.inj ((Printf.expand_of_plain hpercent _).symm.trans hout)
  exact Option.some.inj (h.symm.trans (sprintf_of_plain hpercent hnul hlen arg))

/-! ### The start values -/

/-- A slot of the job ring after `epbssrv_configure`. -/
def unusedJob : BatchJobInfo where
  pcomm := []
  username := []
  numReqNodes := 0
  time1 := 0
  time2 := 0
  time3 := 0
  jobStat := .unknow
  jobId := -1

/-- The tables after `epbssrv_configure` and the start of `main`, for the host
addresses `ips` read from the hosts file; what is not assigned there is zero. -/
def configure (ips : ℤ → Bytes) : Server where
  jobq := fun _ => unusedJob
  jobnodes := fun _ => 0
  nodesstat := fun _ => 0
  pcstat := fun _ => .online
  hostq := fun i =>
    if 1 ≤ i ∧ i ≤ maxNumHosts then ⟨i, HostStat.online.code, ips i⟩ else ⟨0, 0, []⟩
  jobHead := 0
  jobTail := 0

end Epbs
