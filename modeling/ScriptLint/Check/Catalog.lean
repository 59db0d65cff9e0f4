import ScriptLint.Check.Basic

/-!
# Catalogs of checks

A catalog holds the known checks in the order of their definition, no two of one name. It is made
once from a table, of which it keeps the first check of each name, and is only read afterwards.

## Main definitions

* `Catalog α`: checks with distinct names
* `Catalog.ofTable`, `Catalog.ofTableJournal`: the catalog of a table, and the events of making it
* `Catalog.titles`: the titles of all checks, sorted
* `Catalog.find`: the check with a given name or title
* `Catalog.prerequisites`: the checks that provide what a check requires
* `Catalog.select`: the checks that a request names
-/

namespace ScriptLint

/-- Checks with distinct names, in the order of their definition. -/
structure Catalog (α : Type) where
  checks : List (Check α)
  /-- No two checks have the same name. -/
  distinct : (checks.map Check.name).Nodup

namespace Catalog

variable {α : Type}

/-- The catalog of a table: the first check of each name. -/
def ofTable (table : List (Check α)) : Catalog α where
  checks := Check.firsts [] table
  distinct := Check.nodup_firsts [] table

/-- The events of making the catalog of a table: each check that repeats a name, then the number
of checks kept. -/
def ofTableJournal (table : List (Check α)) : List Event :=
  (Check.repeats [] table).map (Event.repeated ·.name) ++
    [.catalogued (ofTable table).checks.length]

/-- The names of the checks, in order. -/
def names (catalog : Catalog α) : List String :=
  catalog.checks.map Check.name

/-- The titles of the checks, in increasing order. -/
def titles (catalog : Catalog α) : List String :=
  (catalog.checks.map Check.title).mergeSort fun a b => decide (a ≤ b)

/-- The first check that has the given stable name or title. -/
def find (catalog : Catalog α) (name : String) : Except Error (Check α) :=
  match catalog.checks.find? fun check => check.name = name ∨ check.title = name with
  | some check => .ok check
  | none => .error (.unknownCheck name)

/-- The checks that provide a topic that a check requires, in order. -/
def prerequisites (catalog : Catalog α) (check : Check α) : List (Check α) :=
  catalog.checks.filter (·.prepares check)

/-- The checks that a request names, each once: all checks if it names none. The first name that
no check has makes the request an error. -/
def select (catalog : Catalog α) (only : List String) : Except Error (List (Check α)) :=
  if only.isEmpty then .ok catalog.checks
  else (Check.firsts []) <$> only.mapM catalog.find

end Catalog

end ScriptLint
