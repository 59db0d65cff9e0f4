import ScriptLint.Leak.Audit
import ScriptLint.Schedule.Preparation

/-!
# The suite

The checks that come with the library, and the inspection of files with all of them or with those
that a request names.

## Main definitions

* `suite`: the table of checks, in the order of their definition
* `suiteCatalog`: its catalog
* `inspect`: the suite run on what is known
-/

namespace ScriptLint

/-- The checks, in the order of their definition. -/
def suite : List (Check Unit) :=
  [socketLeak]

/-- The catalog of the suite. -/
def suiteCatalog : Catalog Unit :=
  .ofTable suite

/-- What came of an inspection, the facts afterwards, and the events on the way. -/
structure Inspection where
  outcome : Except Error (Run Unit)
  facts : Facts
  journal : List Event

/-- Inspects the files among the facts with the checks of the suite that a request names, by name
or by title; with all of them if it names none. If a name is unknown, no check runs. -/
def inspect (facts : Facts) (only : List String) : Inspection :=
  let opening := .requested only :: Catalog.ofTableJournal suite
  match suiteCatalog.select only with
  | .error error => { outcome := .error error, facts, journal := opening }
  | .ok pending =>
    let run := suiteCatalog.run pending facts
    { outcome := .ok run
      facts := run.facts
      journal := opening ++ run.journal ++ [.ended run.done.length run.notRun.length] }

end ScriptLint
