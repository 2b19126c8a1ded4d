import DiffGate.Linter
import Mathlib.Data.List.Forall2

/-!
# Linters that keep to the protocol

A linter is asked to report each selected file once, in their order, and then to complete once with
what became of them. `Work.Reports` says this of its steps and nothing more: programs may be run at
any time, and what is reported of a file may depend on all that happened before. It is said of the
answers and results that the linter gets, so a linter may do anything else where it gets others. How
often the work completes is a parameter, since it is the one part of the protocol that is checked.

The findings of such work are plain. What a reporter makes of them is not restricted here, except
that it makes something; `Transcript.Records` is then all that a play of the work leaves behind.

A transcript keeps reports and completions apart, so it does not tell which came first. Where that
matters, `Work.events` has everything that a linter does in one order, and `Work.logs_events` says
that the transcript is what is left of it.
-/

set_option autoImplicit false

namespace DiffGate

namespace Work

end Work

/-- The transcript records reports of the files, with these results and, behind those of earlier
files, completions with these verdicts. -/
structure Transcript.Records (t : Transcript) (reporter : Reporter) (files : List Path)
    (earlier results : List FileResult) (verdicts : List Bool) : Prop where
  reported : t.reports.map Prod.fst = files
  plain : ∀ report ∈ t.reports, ∀ f ∈ report.2, f.IsPlain
  answered : List.Forall₂ (fun report result => reporter report.1 report.2 = .ok result) t.reports
    results
  printed : t.printed = results.flatMap FileResult.printed
  completions : t.completions = verdicts.map fun success => (success, earlier ++ results)
  reason : t.reason = none

namespace Work

variable {reporter : Reporter} {programs : Programs} {times : Nat} {results : List FileResult}
  {files : List Path} {work : Work}

end Work

/-! ## The programs that are run -/

/-- The linter does the same, whichever of the two programs are there to be run. -/
def Linter.Alike (l : Linter) (programs programs' : Programs) : Prop :=
  ∀ request reporter,
    (l.check request).play reporter programs = (l.check request).play reporter programs'

/-- Work depends on no programs but those that it runs. -/
theorem Work.play_congr {reporter : Reporter} {programs programs' : Programs} {work : Work}
    (h : ∀ command ∈ (work.play reporter programs).calls, programs command = programs' command) :
    work.play reporter programs = work.play reporter programs' := by
  induction work with
  | finished => rfl
  | stopped reason => rfl
  | report file findings next ih =>
    rw [play, play]
    cases hr : reporter file findings with
    | error f => rfl
    | ok result =>
      simp only [play, hr] at h ⊢
      rw [ih result h]
  | run command next ih =>
    rw [play] at h ⊢
    obtain ⟨hcommand, hrest⟩ := List.forall_mem_cons.mp h
    rw [play, ih (programs command) hrest, hcommand]
  | complete success results next ih =>
    rw [play] at h ⊢
    rw [play, ih h]

/-! ## One thing after another -/

/-- What happens while a linter works. -/
inductive Event
  | ran (command : Command)
  | reported (file : Path) (findings : List Finding)
  | completed (success : Bool) (results : List FileResult)
  | stopped (reason : Stop)

namespace Event

def call? : Event → Option Command
  | .ran command => some command
  | _ => none

def report? : Event → Option (Path × List Finding)
  | .reported file findings => some (file, findings)
  | _ => none

def completion? : Event → Option (Bool × List FileResult)
  | .completed success results => some (success, results)
  | _ => none

def reason? : Event → Option Stop
  | .stopped reason => some reason
  | _ => none

end Event

/-- The events of a linter's work, in order. -/
def Work.events (reporter : Reporter) (programs : Programs) : Work → List Event
  | .finished => []
  | .stopped reason => [.stopped reason]
  | .report file findings next =>
    .reported file findings ::
      match reporter file findings with
      | .error f => [.stopped (.fault f)]
      | .ok result => (next result).events reporter programs
  | .run command next => .ran command :: (next (programs command)).events reporter programs
  | .complete success results next => .completed success results :: next.events reporter programs

/-- The transcript is what is left of the events when their order is forgotten. -/
structure Transcript.Logs (t : Transcript) (events : List Event) : Prop where
  calls : t.calls = events.filterMap Event.call?
  reports : t.reports = events.filterMap Event.report?
  completions : t.completions = events.filterMap Event.completion?
  reason : t.reason.toList = events.filterMap Event.reason?

/-- **A play goes through the work's events.** -/
theorem Work.logs_events (reporter : Reporter) (programs : Programs) (work : Work) :
    (work.play reporter programs).Logs (work.events reporter programs) := by
  induction work with
  | finished => exact ⟨rfl, rfl, rfl, rfl⟩
  | stopped reason => exact ⟨rfl, rfl, rfl, rfl⟩
  | report file findings next ih =>
    rw [play, events]
    cases hr : reporter file findings with
    | error f => exact ⟨rfl, rfl, rfl, rfl⟩
    | ok result =>
      obtain ⟨hcalls, hreports, hcompletions, hreason⟩ := ih result
      exact ⟨hcalls, congrArg ((file, findings) :: ·) hreports, hcompletions, hreason⟩
  | run command next ih =>
    obtain ⟨hcalls, hreports, hcompletions, hreason⟩ := ih (programs command)
    exact ⟨congrArg (command :: ·) hcalls, hreports, hcompletions, hreason⟩
  | complete success results next ih =>
    obtain ⟨hcalls, hreports, hcompletions, hreason⟩ := ih
    exact ⟨hcalls, hreports, congrArg ((success, results) :: ·) hcompletions, hreason⟩

end DiffGate
