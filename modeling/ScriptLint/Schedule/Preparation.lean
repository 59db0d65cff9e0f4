import ScriptLint.Check.Catalog
import ScriptLint.Schedule.Rounds

/-!
# Preparation in test mode

In test mode a check is prepared before its body runs: the checks of the catalog that provide what
it requires run first, in rounds of their own, and are prepared in the same way. A check that is
already under preparation is left out, so preparation ends even where checks provide for each
other in a circle. What comes of the prerequisites, be it a death or a deadlock, has no bearing on
whether the check itself runs.

## Main definitions

* `Catalog.available`: the checks that may prepare a check
* `Catalog.prepare`: the preparation of a check
* `Catalog.run`: pending checks run in rounds, each prepared from the catalog

## Main results

* `Catalog.prepare_eq`: preparation, without the bound that shows that it ends
-/

namespace ScriptLint

namespace Catalog

variable {α : Type}

/-- The prerequisites of a check that are not under preparation. -/
def available (catalog : Catalog α) (preparing : List String) (check : Check α) :
    List (Check α) :=
  (catalog.prerequisites check).filter (·.name ∉ preparing)

/-- How many checks of the catalog are not under preparation. -/
def idle (catalog : Catalog α) (preparing : List String) : Nat :=
  (catalog.checks.filter (·.name ∉ preparing)).length

/-- One check less is idle once a check of the catalog is under preparation too. -/
theorem idle_cons_lt {catalog : Catalog α} {preparing : List String} {name : String}
    (hmem : name ∈ catalog.names) (hnew : name ∉ preparing) :
    catalog.idle (name :: preparing) < catalog.idle preparing := by
  obtain ⟨check, hcheck, rfl⟩ := List.mem_map.1 hmem
  have hsplit : catalog.checks.filter (·.name ∉ check.name :: preparing) =
      (catalog.checks.filter (·.name ∉ preparing)).filter (·.name ≠ check.name) := by
    rw [List.filter_filter]
    refine List.filter_congr fun other _ => ?_
    simp
  rw [idle, idle, hsplit]
  exact List.length_filter_lt_length_iff_exists.2
    ⟨check, List.mem_filter.2 ⟨hcheck, by simpa using hnew⟩, by simp⟩

/-- The preparation of a check while others are under preparation. Outside test mode there is
none. The rounds of the prerequisites are told apart by the names under preparation, to which the
check is added; since its prerequisites are in the catalog and idle, fewer and fewer checks are. -/
def prepare (catalog : Catalog α) (preparing : List String) (check : Check α) (facts : Facts) :
    Preparation α :=
  let available := catalog.available preparing check
  if facts.testMode ∧ check.name ∉ preparing ∧ available ≠ [] then
    let nested := check.name :: preparing
    let prepareNested := fun prerequisite facts =>
      if _h : prerequisite.name ∈ catalog.names ∧ prerequisite.name ∉ nested then
        catalog.prepare nested prerequisite facts
      else .none facts
    let run := rounds nested prepareNested available facts
    { prerequisites := run.done, facts := run.facts,
      journal := .preparing check.name available.length :: run.journal }
  else .none facts
termination_by catalog.idle (check.name :: preparing)
decreasing_by exact idle_cons_lt _h.1 _h.2

/-- The available prerequisites of a check are checks of the catalog that are not under
preparation, and none has the name of the check. -/
theorem mem_available {catalog : Catalog α} {preparing : List String}
    {check prerequisite : Check α} (h : prerequisite ∈ catalog.available preparing check) :
    prerequisite.name ∈ catalog.names ∧ prerequisite.name ∉ check.name :: preparing := by
  obtain ⟨hpre, hidle⟩ := List.mem_filter.1 h
  obtain ⟨hmem, hprovides⟩ := List.mem_filter.1 hpre
  refine ⟨List.mem_map_of_mem hmem, ?_⟩
  simp only [Check.prepares, Bool.and_eq_true, decide_eq_true_eq] at hprovides hidle
  simpa using ⟨hprovides.1, hidle⟩

/-- **Preparation**: in test mode, the rounds of the available prerequisites, each of them prepared
with the check under preparation too. -/
theorem prepare_eq (catalog : Catalog α) (preparing : List String) (check : Check α)
    (facts : Facts) :
    catalog.prepare preparing check facts =
      let available := catalog.available preparing check
      if facts.testMode ∧ check.name ∉ preparing ∧ available ≠ [] then
        let nested := check.name :: preparing
        let run := rounds nested (catalog.prepare nested) available facts
        { prerequisites := run.done, facts := run.facts,
          journal := .preparing check.name available.length :: run.journal }
      else .none facts := by
  rw [prepare]
  dsimp only
  rw [rounds_congr (check.name :: preparing) (fun prerequisite hmem => funext fun later =>
    dif_pos (mem_available hmem))]

/-- Runs the pending checks in rounds, each prepared from the catalog. -/
def run (catalog : Catalog α) (pending : List (Check α)) (facts : Facts) : Run α :=
  rounds [] (catalog.prepare []) pending facts

end Catalog

end ScriptLint
