import ScriptLint.Fact
import ScriptLint.Journal

/-!
# Bodies of checks

A body is what a check does when it runs. It reads and files facts, reads and extends its own
report, and notes events; it has no other way to act. In particular a body cannot withdraw a
fact, so a topic that is known stays known (`Body.knows_run`). A body that puts other facts or
another report in the place of those it is given, or that starts a run of checks of its own, is
left out.

## Main definitions

* `Body α`: the bodies that hand back an `α`
* `Body.run`: a body run on a report and facts
* `Outcome`: what a body hands back, and what it leaves behind
* `Body.fatal`, `Body.reportAt`, `Body.files`, `Body.setTestMode`: actions made of the basic ones

## Main results

* `Body.run_bind`: a sequence of two bodies runs the second on what the first left behind
* `Body.knows_run`: a body keeps every topic known
-/

namespace ScriptLint

/-- What a check does when it runs: a sequence of actions, each of which may depend on the
answers to those before it. The actions are the operations of facts and reports. Replacing the facts
or the report as a whole, and going back into the scheduler to run further checks, are left out:
they are no actions of a body, and what is proved of runs does not extend to checks that do so. -/
inductive Body (α : Type) where
  /-- Hand back a value. -/
  | done (value : α)
  /-- Read the facts. -/
  | readFacts (next : Facts → Body α)
  /-- File a fact under a topic, and learn which one it replaces. -/
  | fileFact (topic : Topic) (fact : Fact) (next : Option Fact → Body α)
  /-- Read the report. -/
  | readReport (next : Report → Body α)
  /-- Set the verdict. -/
  | setVerdict (verdict : Verdict) (next : Body α)
  /-- Report a line. -/
  | addLine (line : Line) (next : Body α)
  /-- Note an event. -/
  | noteEvent (event : Event) (next : Body α)

/-- What a body hands back, and the report, the facts and the events it leaves behind. -/
structure Outcome (α : Type) where
  result : α
  report : Report
  facts : Facts
  journal : List Event := []

namespace Body

variable {α β : Type}

/-- The body followed by another, which depends on what the first hands back. -/
def bind : Body α → (α → Body β) → Body β
  | done value, next => next value
  | readFacts rest, next => readFacts fun facts => (rest facts).bind next
  | fileFact topic fact rest, next => fileFact topic fact fun old => (rest old).bind next
  | readReport rest, next => readReport fun report => (rest report).bind next
  | setVerdict verdict rest, next => setVerdict verdict (rest.bind next)
  | addLine line rest, next => addLine line (rest.bind next)
  | noteEvent event rest, next => noteEvent event (rest.bind next)

instance : Monad Body where
  pure := done
  bind := bind

/-- The body run on a report and facts. -/
def run : Body α → Report → Facts → Outcome α
  | done value, report, facts => { result := value, report, facts }
  | readFacts next, report, facts => (next facts).run report facts
  | fileFact topic fact next, report, facts =>
    (next (facts.get? topic)).run report (facts.insert topic fact)
  | readReport next, report, facts => (next report).run report facts
  | setVerdict verdict next, report, facts => next.run (report.conclude verdict) facts
  | addLine line next, report, facts => next.run (report.add line) facts
  | noteEvent event next, report, facts =>
    let rest := next.run report facts
    { rest with journal := event :: rest.journal }

/-- **Sequencing**: the second body runs on the report and the facts that the first left behind,
and its events follow. -/
theorem run_bind (body : Body α) (next : α → Body β) (report : Report) (facts : Facts) :
    (body >>= next).run report facts =
      let first := body.run report facts
      let second := (next first.result).run first.report first.facts
      { second with journal := first.journal ++ second.journal } := by
  change (body.bind next).run report facts = _
  induction body generalizing report facts with
  | done value => rfl
  | readFacts rest ih => exact ih facts report facts
  | fileFact topic fact rest ih => exact ih (facts.get? topic) report (facts.insert topic fact)
  | readReport rest ih => exact ih report report facts
  | setVerdict verdict rest ih => exact ih (report.conclude verdict) facts
  | addLine line rest ih => exact ih (report.add line) facts
  | noteEvent event rest ih => simp [bind, run, ih report facts]

/-- A body keeps every topic known. -/
theorem knows_run (body : Body α) (report : Report) {facts : Facts} {topic : Topic}
    (h : facts.Knows topic) : (body.run report facts).facts.Knows topic := by
  induction body generalizing report facts with
  | done value => exact h
  | readFacts next ih => exact ih facts report h
  | fileFact other fact next ih => exact ih (facts.get? other) report (h.insert other fact)
  | readReport next ih => exact ih report report h
  | setVerdict verdict next ih => exact ih (report.conclude verdict) h
  | addLine line next ih => exact ih (report.add line) h
  | noteEvent event next ih => exact ih report h

/-! ## Actions -/

/-- The facts. -/
def facts : Body Facts :=
  readFacts done

/-- Files a fact under a topic, and hands back the one it replaces. -/
def insert (topic : Topic) (fact : Fact) : Body (Option Fact) :=
  fileFact topic fact done

/-- The report so far. -/
def report : Body Report :=
  readReport done

/-- Sets the verdict. -/
def conclude (verdict : Verdict) : Body Unit :=
  setVerdict verdict (done ())

/-- Reports a line. -/
def say (severity : Severity) (text : String) : Body Unit :=
  addLine ⟨severity, text⟩ (done ())

/-- Notes an event. -/
def note (event : Event) : Body Unit :=
  noteEvent event (done ())

/-- Reports a fatal error, and concludes that the check died. -/
def fatal : Body Unit := do
  say .error "This is a fatal error."
  conclude .died

/-- Reports a line at the severity that a level names. If the level names none, nothing is
reported. -/
def reportAt (level text : String) : Body (Except Error Unit) :=
  match Severity.ofLevel level with
  | .ok severity => do
    say severity text
    return .ok ()
  | .error error => return .error error

/-- The files under check. It is noted if something else is filed in their place. -/
def files : Body (List File) := do
  let facts ← facts
  if facts.scriptsMisfiled then
    note .misfiled
  return facts.files

/-- Turns test mode on or off. -/
def setTestMode (on : Bool) : Body Unit := do
  let _ ← insert .testMode (.flag on)

end Body

end ScriptLint
