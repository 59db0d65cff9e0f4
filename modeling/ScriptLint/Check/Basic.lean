import ScriptLint.Check.Body

/-!
# Checks

A check has a stable name, the topics it requires, the topics it says it provides, and a body. It
may run once a fact is filed under each topic that it requires.

## Main definitions

* `Check α`: a check whose body hands back an `α`
* `Check.title`: the name of a check as people read it
* `Check.ready`: whether a check may run
* `Check.prepares`: whether a check provides something that another requires
* `Check.firsts`: the first check of each name in a list
-/

namespace ScriptLint

/-- A check, whose body hands back an `α`. -/
structure Check (α : Type) where
  /-- The stable name. -/
  name : String
  /-- The topics that must be known before the check runs. -/
  requires : List Topic := []
  /-- The topics that the check says it makes known. -/
  provides : List Topic := []
  /-- What the check does. -/
  body : Body α

namespace Check

variable {α : Type}

/-- The name of a check as people read it. -/
def title (check : Check α) : String :=
  Text.title check.name

/-- Whether every topic that a check requires is known. -/
def ready (check : Check α) (facts : Facts) : Bool :=
  check.requires.all facts.has

/-- A ready check stays ready as facts are added. -/
theorem ready_mono {check : Check α} {facts later : Facts} (h : check.ready facts = true)
    (hle : ∀ topic, facts.Knows topic → later.Knows topic) : check.ready later = true := by
  rw [ready, List.all_eq_true] at *
  exact fun topic hmem => hle topic (h topic hmem)

/-- Whether a check provides a topic that another check, of another name, requires. -/
def prepares (provider check : Check α) : Bool :=
  provider.name ≠ check.name && provider.provides.any (· ∈ check.requires)

/-! ## The first of each name -/

/-- The checks with a name that is neither in `seen` nor that of an earlier check. -/
def firsts (seen : List String) : List (Check α) → List (Check α)
  | [] => []
  | check :: rest =>
    if check.name ∈ seen then firsts seen rest
    else check :: firsts (check.name :: seen) rest

/-- The checks with a name that is in `seen` or that of an earlier check. -/
def repeats (seen : List String) : List (Check α) → List (Check α)
  | [] => []
  | check :: rest =>
    if check.name ∈ seen then check :: repeats seen rest
    else repeats (check.name :: seen) rest

/-- The firsts are among the checks of the list, with names that were not seen. -/
theorem mem_of_mem_firsts {check : Check α} {seen : List String} {checks : List (Check α)}
    (h : check ∈ firsts seen checks) : check ∈ checks ∧ check.name ∉ seen := by
  induction checks generalizing seen with
  | nil => exact absurd h List.not_mem_nil
  | cons first rest ih =>
    unfold firsts at h
    split at h
    · exact ⟨List.mem_cons_of_mem _ (ih h).1, (ih h).2⟩
    · next hnew =>
      rcases List.mem_cons.1 h with rfl | h
      · exact ⟨List.mem_cons_self, hnew⟩
      · exact ⟨List.mem_cons_of_mem _ (ih h).1, fun hs => (ih h).2 (List.mem_cons_of_mem _ hs)⟩

/-- The firsts have distinct names. -/
theorem nodup_firsts (seen : List String) (checks : List (Check α)) :
    ((firsts seen checks).map name).Nodup := by
  induction checks generalizing seen with
  | nil => exact List.nodup_nil
  | cons first rest ih =>
    unfold firsts
    split
    · exact ih seen
    · refine List.nodup_cons.2 ⟨fun hmem => ?_, ih (first.name :: seen)⟩
      obtain ⟨check, hcheck, hname⟩ := List.mem_map.1 hmem
      exact (mem_of_mem_firsts hcheck).2 (hname ▸ List.mem_cons_self)

end Check

end ScriptLint
