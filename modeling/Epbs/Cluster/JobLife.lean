/-
The life of one job, as the master sees it: an automaton that names no slot, no
node and no other job.

* `JobView`, `JobStep`: what the tables and the history say about a job, and the
  ways a step of the master changes it;
* `JobView.Ok`: what holds of every job: in particular a job is FINISHED only
  after every report of it was handled, and leaves its counter at zero;
* `JobView.Exact`: what holds if no report is handled before the counter is
  written and every round of the dispatch loop finds a FREE node: the job is
  FINISHED exactly when all reports were handled (`JobView.Exact.finished_iff`).
-/
import Epbs.Server.Tables

namespace Epbs

/-! ### The automaton -/

/-- Where a job is: in the queue, in the waiting loop, at node `k` in round `i`
of the dispatch loops, or past them. -/
inductive JobPhase where
  | queued
  | waiting
  | dispatching (i k : ℤ)
  | placed
  deriving DecidableEq

/-- A job: its phase, its slot's status, the nodes it asks for, its counter, the
submit messages sent for it, its reports handled, and whether it was marked
FINISHED. -/
@[ext]
structure JobView where
  phase : JobPhase
  stat : JobStat
  need : ℤ
  counter : ℤ
  sent : ℕ
  heard : ℕ
  finished : Bool
  deriving DecidableEq

/-- A job as SUBMIT stores it. -/
def JobView.submitted (need : ℤ) : JobView := ⟨.queued, .inqueue, need, 0, 0, 0, false⟩

/-- What happens to a job: the pop thread takes a step with it, or one of its
reports is handled. -/
inductive JobAct where
  | pop
  | report
  deriving DecidableEq

/-- The ways a job changes. Taking a job, its rounds and its placing are steps of the pop thread;
the two reports differ in what they bring the counter to. -/
inductive JobStep (numHosts : ℤ) (v : JobView) : JobAct → JobView → Prop
  | take (hphase : v.phase = .queued) (hfits : v.need ≤ numHosts) :
      JobStep numHosts v .pop { v with phase := .waiting, stat := .running }
  | skip (hphase : v.phase = .queued) (hlarge : numHosts < v.need) :
      JobStep numHosts v .pop { v with phase := .placed, stat := .running }
  | enough (hphase : v.phase = .waiting) :
      JobStep numHosts v .pop { v with phase := .dispatching 1 1 }
  | assign {i k : ℤ} (hphase : v.phase = .dispatching i k) (hi : i ≤ v.need)
      (hk : k ≤ numHosts) :
      JobStep numHosts v .pop
        { v with phase := .dispatching (i + 1) 1, sent := v.sent + 1 }
  | next {i k : ℤ} (hphase : v.phase = .dispatching i k) (hi : i ≤ v.need)
      (hk : k ≤ numHosts) :
      JobStep numHosts v .pop { v with phase := .dispatching i (k + 1) }
  | giveUp {i k : ℤ} (hphase : v.phase = .dispatching i k) (hi : i ≤ v.need)
      (hk : numHosts < k) :
      JobStep numHosts v .pop { v with phase := .dispatching (i + 1) 1 }
  | place {i k : ℤ} (hphase : v.phase = .dispatching i k) (hi : v.need < i) :
      JobStep numHosts v .pop { v with phase := .placed, counter := v.need }
  | report (hsent : v.heard < v.sent) (hmore : v.counter - 1 ≠ 0) :
      JobStep numHosts v .report
        { v with counter := v.counter - 1, heard := v.heard + 1 }
  | lastReport (hsent : v.heard < v.sent) (hlast : v.counter - 1 = 0) :
      JobStep numHosts v .report
        { v with
          counter := v.counter - 1
          heard := v.heard + 1
          stat := .finished
          finished := true }

/-! ### What holds of every job -/

namespace JobView

/-- Before the counter is written it has run ahead of the reports that came
early; after that it is at least the number of reports still to come, unless no
message was sent at all. -/
def Ok (v : JobView) : Prop :=
  v.heard ≤ v.sent ∧
  match v.phase with
  | .queued => v.stat = .inqueue ∧ v.counter = 0 ∧ v.sent = 0 ∧ v.finished = false
  | .waiting => v.stat = .running ∧ v.counter = 0 ∧ v.sent = 0 ∧ v.finished = false
  | .dispatching i _ =>
      v.stat = .running ∧ v.counter = -v.heard ∧ v.sent + 1 ≤ i ∧ (i ≤ v.need + 1 ∨ i = 1) ∧
        v.finished = false
  | .placed =>
      if v.finished then v.stat = .finished ∧ v.counter = 0 ∧ v.heard = v.sent
      else v.stat = .running ∧ (v.sent = 0 ∨ v.sent ≤ v.counter + v.heard)

lemma ok_submitted (need : ℤ) : (submitted need).Ok := by simp [Ok, submitted]

/-- **One step of a job** keeps the invariant. The counter may be negative while the rounds
run, as a report can come before the nodes are counted; placing the job sets that right. -/
lemma Ok.step {numHosts : ℤ} {a : JobAct} {v v' : JobView} (h : v.Ok)
    (hstep : JobStep numHosts v a v') : v'.Ok := by
  obtain ⟨hle, hphase⟩ := h
  cases hstep with
  | take hp hfits =>
      simp only [hp] at hphase
      exact ⟨hle, rfl, hphase.2.1, hphase.2.2.1, hphase.2.2.2⟩
  | skip hp hlarge =>
      simp only [hp] at hphase
      refine ⟨hle, ?_⟩
      simp only [hphase.2.2.2]
      exact ⟨trivial, Or.inl hphase.2.2.1⟩
  | enough hp =>
      simp only [hp] at hphase
      obtain ⟨hstat, hcounter, hsent, hfin⟩ := hphase
      refine ⟨hle, hstat, ?_, ?_, Or.inr rfl, hfin⟩ <;> simp only <;> omega
  | assign hp hi hk =>
      simp only [hp] at hphase
      obtain ⟨hstat, hcounter, hsent, hround, hfin⟩ := hphase
      refine ⟨?_, hstat, hcounter, ?_, ?_, hfin⟩ <;> simp only <;> omega
  | next hp hi hk =>
      simp only [hp] at hphase
      exact ⟨hle, hphase⟩
  | giveUp hp hi hk =>
      simp only [hp] at hphase
      obtain ⟨hstat, hcounter, hsent, hround, hfin⟩ := hphase
      refine ⟨hle, hstat, hcounter, ?_, ?_, hfin⟩ <;> simp only <;> omega
  | place hp hi =>
      simp only [hp] at hphase
      obtain ⟨hstat, hcounter, hsent, hround, hfin⟩ := hphase
      refine ⟨hle, ?_⟩
      simp only [hfin]
      exact ⟨hstat, by omega⟩
  | report hsent hmore =>
      refine ⟨by simp only; omega, ?_⟩
      -- before its dispatch the job has sent nothing, so there is nothing to report
      cases hp : v.phase with
      | queued => simp only [hp] at hphase; omega
      | waiting => simp only [hp] at hphase; omega
      | dispatching i k =>
          simp only [hp] at hphase ⊢
          obtain ⟨hstat, hcounter, hround⟩ := hphase
          exact ⟨hstat, by push_cast; omega, hround⟩
      | placed =>
          simp only [hp] at hphase ⊢
          split_ifs at hphase ⊢
          · omega
          · exact ⟨hphase.1, by push_cast; omega⟩
  | lastReport hsent hlast =>
      refine ⟨by simp only; omega, ?_⟩
      -- a counter that is not positive does not come down to 0: only a placed job ends
      cases hp : v.phase with
      | queued => simp only [hp] at hphase; omega
      | waiting => simp only [hp] at hphase; omega
      | dispatching i k => simp only [hp] at hphase; omega
      | placed =>
          simp only [hp, if_true] at hphase ⊢
          split_ifs at hphase
          · omega
          · exact ⟨trivial, hlast, by omega⟩

/-- Only a job past its dispatch is FINISHED; all its reports were handled. -/
lemma Ok.of_finished {v : JobView} (h : v.Ok) (hfin : v.finished = true) :
    v.phase = .placed ∧ v.stat = .finished ∧ v.counter = 0 ∧ v.heard = v.sent := by
  obtain ⟨_, hphase⟩ := h
  cases hp : v.phase with
  | queued => simp [hp, hfin] at hphase
  | waiting => simp [hp, hfin] at hphase
  | dispatching i k => simp [hp, hfin] at hphase
  | placed => exact ⟨rfl, by simpa [hp, hfin] using hphase⟩

/-- The status of a job that is not FINISHED. -/
lemma Ok.stat_of_not_finished {v : JobView} (h : v.Ok) (hfin : v.finished = false) :
    v.stat = if v.phase = .queued then .inqueue else .running := by
  obtain ⟨_, hphase⟩ := h
  cases hp : v.phase <;> simp only [hp] at hphase
  case placed =>
      rw [hfin, if_neg (by simp)] at hphase
      exact hphase.1
  all_goals exact hphase.1

/-! ### When the count is exact -/

/-- A report is handled once the counter is written, and a round of the dispatch
loops does not run past the last node. -/
def Guard (numHosts : ℤ) (v : JobView) : JobAct → Prop
  | .report => v.phase = .placed
  | .pop => ∀ i k, v.phase = .dispatching i k → i ≤ v.need → k ≤ numHosts

/-- Every round sends one message, and the counter is what is still to come. -/
def Exact (numHosts : ℤ) (v : JobView) : Prop :=
  match v.phase with
  | .queued | .waiting => True
  | .dispatching i _ => v.heard = 0 ∧ v.sent + 1 = i
  | .placed => 1 ≤ v.need → v.need ≤ numHosts → v.sent = v.need ∧
      (v.finished = false → v.counter = v.need - v.heard ∧ v.heard < v.need)

/-- **One guarded step of a job** keeps the count exact: the guard gives every round its node
and holds the reports back until `jobnodes` is set. -/
lemma Exact.step {numHosts : ℤ} {a : JobAct} {v v' : JobView} (h : v.Exact numHosts)
    (hok : v.Ok) (hg : v.Guard numHosts a) (hstep : JobStep numHosts v a v') :
    v'.Exact numHosts := by
  obtain ⟨hle, hphase⟩ := hok
  cases hstep with
  | take hp hfits => trivial
  | skip hp hlarge => exact fun _ hfits => absurd hlarge (not_lt.mpr hfits)
  | enough hp =>
      simp only [hp] at hphase
      refine ⟨?_, ?_⟩ <;> simp only <;> omega
  | assign hp hi hk =>
      simp only [Exact, hp] at h
      exact ⟨h.1, by simp only; omega⟩
  | next hp hi hk =>
      simp only [Exact, hp] at h
      exact h
  | giveUp hp hi hk => exact absurd (hg _ _ hp hi) (not_le.mpr hk)
  | place hp hi =>
      simp only [Exact, hp] at h hphase
      intro hneed _
      simp only at hneed ⊢
      exact ⟨by omega, fun _ => ⟨by omega, by omega⟩⟩
  | report hsent hmore =>
      -- the guard: no report is handled before the job is placed
      have hp : v.phase = .placed := hg
      simp only [Exact, hp] at h hphase ⊢
      intro hneed hfits
      obtain ⟨hall, hcount⟩ := h hneed hfits
      refine ⟨hall, fun hfin => ?_⟩
      have hcount := hcount hfin
      push_cast
      omega
  | lastReport hsent hlast =>
      have hp : v.phase = .placed := hg
      simp only [Exact, hp] at h ⊢
      exact fun hneed hfits => ⟨(h hneed hfits).1, nofun⟩

/-- **Completion**: the job is FINISHED exactly when its dispatch is complete and
as many reports as nodes were handled. -/
lemma Exact.finished_iff {numHosts : ℤ} {v : JobView} (h : v.Exact numHosts) (hok : v.Ok)
    (hneed : 1 ≤ v.need) (hfits : v.need ≤ numHosts) :
    v.stat = .finished ↔ v.phase = .placed ∧ v.heard = v.need := by
  by_cases hfin : v.finished = true
  · obtain ⟨hp, hstat, _, hheard⟩ := hok.of_finished hfin
    simp only [Exact, hp] at h
    have hsent := (h hneed hfits).1
    exact ⟨fun _ => ⟨hp, by omega⟩, fun _ => hstat⟩
  · rw [Bool.not_eq_true] at hfin
    refine ⟨fun hstat => ?_, fun ⟨hp, hheard⟩ => ?_⟩
    · rw [hok.stat_of_not_finished hfin] at hstat
      split_ifs at hstat
    · simp only [Exact, hp] at h
      have := ((h hneed hfits).2 hfin).2
      omega

end JobView

end Epbs
