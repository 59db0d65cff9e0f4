import ScriptLint.Script.Basic

/-!
# Facts

What is known about the files under check. Facts are filed under topics, at most one for each:
the scripts themselves, whether test mode is on, and whatever one check leaves for another. A
topic that has a fact keeps one, since facts are replaced and never withdrawn.

## Main definitions

* `Topic`, `Fact`: what a fact is filed under, and what it says
* `Facts`: the known facts by topic
* `Facts.insert`: filing a fact in place of an earlier one
* `Facts.files`, `Facts.testMode`: the two topics that the runner itself reads

## Main results

* `Facts.get?_insert`: the fact filed last is the one found
* `Facts.Knows.insert`: filing a fact keeps every topic known
-/

namespace ScriptLint

/-- What a fact is filed under. -/
inductive Topic where
  /-- The scripts under check. -/
  | scripts
  /-- Whether a check first runs the checks that provide what it requires. -/
  | testMode
  /-- A topic that checks agree on among themselves. -/
  | named (name : String)
deriving DecidableEq, Inhabited

/-- What a fact says. -/
inductive Fact where
  /-- The files under check, in the order they were given. -/
  | scripts (files : List File)
  /-- A yes or no. -/
  | flag (value : Bool)
  /-- Anything else. -/
  | text (value : String)
deriving DecidableEq, Inhabited

/-- The known facts, by topic. -/
@[ext]
structure Facts where
  /-- The fact filed under a topic, if there is one. -/
  get? : Topic → Option Fact

namespace Facts

/-- Nothing is known. -/
def none : Facts :=
  ⟨fun _ => .none⟩

instance : Inhabited Facts where
  default := none

/-- The facts with one filed under a topic, in place of the one that was there. -/
def insert (facts : Facts) (topic : Topic) (fact : Fact) : Facts :=
  ⟨fun other => if other = topic then some fact else facts.get? other⟩

theorem get?_insert (facts : Facts) (topic other : Topic) (fact : Fact) :
    (facts.insert topic fact).get? other =
      if other = topic then some fact else facts.get? other := rfl

@[simp]
theorem get?_insert_self (facts : Facts) (topic : Topic) (fact : Fact) :
    (facts.insert topic fact).get? topic = some fact := if_pos rfl

/-- The facts that hold the given files and nothing else. -/
def ofFiles (files : List File) : Facts :=
  none.insert .scripts (.scripts files)

/-- Whether a fact is filed under a topic. -/
def has (facts : Facts) (topic : Topic) : Bool :=
  (facts.get? topic).isSome

/-- A topic under which a fact is filed. -/
def Knows (facts : Facts) (topic : Topic) : Prop :=
  facts.has topic = true

instance (facts : Facts) (topic : Topic) : Decidable (facts.Knows topic) :=
  inferInstanceAs (Decidable (facts.has topic = true))

theorem Knows.insert {facts : Facts} {topic : Topic} (h : facts.Knows topic) (other : Topic)
    (fact : Fact) : (facts.insert other fact).Knows topic := by
  unfold Knows has at *
  rw [get?_insert]
  split
  · rfl
  · exact h

theorem knows_insert_iff {facts : Facts} {topic other : Topic} {fact : Fact} :
    (facts.insert other fact).Knows topic ↔ topic = other ∨ facts.Knows topic := by
  unfold Knows has
  rw [get?_insert]
  split
  · next h => simp [h]
  · next h => simp [h]

/-- The files under check: none if nothing, or something else, is filed under their topic. -/
def files (facts : Facts) : List File :=
  match facts.get? .scripts with
  | some (.scripts files) => files
  | _ => []

/-- Whether something other than files is filed under the topic of the scripts. -/
def scriptsMisfiled (facts : Facts) : Bool :=
  match facts.get? .scripts with
  | .none | some (.scripts _) => false
  | some _ => true

/-- Whether test mode is on. -/
def testMode (facts : Facts) : Bool :=
  match facts.get? .testMode with
  | some (.flag on) => on
  | _ => false

/-- The facts with test mode on or off. -/
def setTestMode (facts : Facts) (on : Bool) : Facts :=
  facts.insert .testMode (.flag on)

@[simp]
theorem testMode_setTestMode (facts : Facts) (on : Bool) :
    (facts.setTestMode on).testMode = on := rfl

end Facts

end ScriptLint
