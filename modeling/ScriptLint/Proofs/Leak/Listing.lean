import ScriptLint.Proofs.Leak.Warnings
import ScriptLint.Proofs.Text.Separated

/-!
# Reading a warning back

A warning of leaked handles lists the names that may hold one, in increasing order and joined by a
comma and a space. A handle without a name is listed under a text that stands for it. Two things
could go wrong when such a list is read: a name with a comma may pass for several names, and a
handle that is really named like the text for unnamed ones would be taken for one of those. If no
name is of this kind, the list gives back the set that it was made from.

The names are listed in an order that is their own, since a set is kept as its increasing list. So
nothing of the way in which a set came about shows in its warning: names may have been added,
removed and merged in any order, and more than once.

## Main definitions

* `Listable`: names that can be told apart in a list
* `listedNames`: the names that a list is read as
* `NameSet.History`: a way in which a set came about, with the names that it keeps

## Main results

* `listedNames_commaSeparated`: the names in a warning, read back
* `eq_of_leakWarning_eq`: a warning has one set
* `NameSet.History.mem_outcome`: the members of a set, by how it came about
* `leakWarning_can_be_read_back`: all of it in one
-/

namespace ScriptLint

/-! ## Order -/

/-- The code points of a text, in order. -/
def Text.codePoints (text : String) : List Nat :=
  text.toList.map Char.toNat

/-- Texts are ordered by their code points. -/
theorem Text.codePoints_lt {a b : String} (h : a < b) : codePoints a < codePoints b :=
  List.map_lt (fun _ _ hlt => hlt) h

/-- A name before which there is no other comes first in the sets that it is in. -/
theorem NameSet.head?_toList_of_not_lt {names : NameSet} {name : String} (hmem : name ∈ names)
    (hleast : ∀ other : String, ¬ other < name) : names.toList.head? = some name := by
  obtain ⟨listed, hincreasing⟩ := names
  cases listed with
  | nil => exact absurd hmem List.not_mem_nil
  | cons first rest =>
    rcases List.mem_cons.mp hmem with rfl | hrest
    · rfl
    · exact absurd ((List.pairwise_cons.mp hincreasing).1 name hrest) (hleast first)

/-! ## Names in a list -/

/-- A name that can be told apart in a list: it is that of unnamed handles, or it has no comma and
is not the text that these are listed under. -/
def Listable (name : String) : Prop :=
  name = unassigned ∨ ',' ∉ name.toList ∧ name ≠ "<unassigned>"

instance (name : String) : Decidable (Listable name) :=
  inferInstanceAs (Decidable (_ ∨ _))

/-- The name that is read where a text is listed. -/
def nameOfShown (shown : String) : String :=
  if shown = "<unassigned>" then unassigned else shown

/-- The names that a list is read as. -/
def listedNames (listing : String) : List String :=
  (Text.commaParts listing).map nameOfShown

theorem nameOfShown_shownName {name : String} (h : Listable name) :
    nameOfShown (shownName name) = name := by
  unfold shownName
  split
  · next hunassigned => exact hunassigned.symm
  · next hne => exact if_neg (h.resolve_left hne).2

theorem comma_not_mem_shownName {name : String} (h : Listable name) :
    ',' ∉ (shownName name).toList := by
  unfold shownName
  split
  · decide
  · next hne => exact (h.resolve_left hne).1

/-- **The names in a warning, read back**: these are the members of the set, in order. -/
theorem listedNames_commaSeparated {names : NameSet} (hne : names ≠ ∅)
    (hnames : ∀ name ∈ names, Listable name) :
    listedNames (Text.commaSeparated (names.toList.map shownName)) = names.toList := by
  have hlisted : names.toList.map shownName ≠ [] := by
    intro hnil
    apply hne
    rw [← NameSet.isEmpty_iff]
    exact List.isEmpty_iff.mpr (List.map_eq_nil_iff.mp hnil)
  have hcommas : ∀ shown ∈ names.toList.map shownName, ',' ∉ shown.toList := by
    intro shown hshown
    obtain ⟨name, hname, rfl⟩ := List.mem_map.mp hshown
    exact comma_not_mem_shownName (hnames name hname)
  rw [listedNames, Text.commaParts_commaSeparated hlisted hcommas, List.map_map]
  -- what is left is to read each name by itself
  refine (List.map_congr_left fun name hname => ?_).trans (List.map_id names.toList)
  exact nameOfShown_shownName (hnames name hname)

/-- **A warning has one set**: two sets of listable names with the same warning are equal. -/
theorem eq_of_leakWarning_eq {names others : NameSet} (hne : names ≠ ∅)
    (hnames : ∀ name ∈ names, Listable name) (hne' : others ≠ ∅)
    (hothers : ∀ name ∈ others, Listable name) (h : leakWarning others = leakWarning names) :
    others = names := by
  have hlisting := (String.append_right_inj _).mp h
  have hlisted : others.toList = names.toList := by
    rw [← listedNames_commaSeparated hne' hothers, hlisting, listedNames_commaSeparated hne hnames]
  ext name
  rw [NameSet.mem_def, hlisted, NameSet.mem_def]

/-! ## How a set came about -/

/-- A way in which a set of names came about. -/
inductive NameSet.History where
  /-- There is no name yet. -/
  | nothing
  /-- A name was added to what was there. -/
  | added (earlier : History) (name : String)
  /-- A name was removed from what was there. -/
  | removed (earlier : History) (name : String)
  /-- What came about in one way was merged with what came about in another. -/
  | merged (first second : History)

namespace NameSet.History

/-- The set that came about. -/
def outcome : History → NameSet
  | nothing => ∅
  | added earlier name => earlier.outcome.insert name
  | removed earlier name => earlier.outcome.erase name
  | merged first second => first.outcome ∪ second.outcome

/-- Whether a name is there in the end: it was added, and not removed since. -/
def Keeps : History → String → Prop
  | nothing, _ => False
  | added earlier other, name => name = other ∨ earlier.Keeps name
  | removed earlier other, name => name ≠ other ∧ earlier.Keeps name
  | merged first second, name => first.Keeps name ∨ second.Keeps name

/-- **The members of a set, by how it came about**: the names that are there in the end. -/
theorem mem_outcome {history : History} {name : String} :
    name ∈ history.outcome ↔ history.Keeps name := by
  induction history with
  | nothing => exact iff_of_false (not_mem_empty name) id
  | added earlier other ih => rw [outcome, mem_insert, ih, Keeps]
  | removed earlier other ih => rw [outcome, mem_erase, ih, Keeps, and_comm]
  | merged first second ihfirst ihsecond => rw [outcome, mem_union, ihfirst, ihsecond, Keeps]

/-- Two histories that keep the same names have one outcome. -/
theorem outcome_eq {first second : History} (h : ∀ name, first.Keeps name ↔ second.Keeps name) :
    first.outcome = second.outcome := by
  ext name
  rw [mem_outcome, mem_outcome, h name]

end NameSet.History

/-! ## The warning -/

/-- **A leak warning can be read back.** Take a set of names that has a member, and in which all are
listable. The line that is reported for it is a fixed text and a list. Split at each comma that a
space follows, and with the text for unnamed handles read as the empty name, the list gives back
the members of the set, in strictly increasing order of their code points, so that the empty name
comes first if it is one of them. Two such sets with one line are equal. And two sets have the same
line if the same names were kept in them, in whatever order names were added, removed and merged. -/
theorem leakWarning_can_be_read_back (names : NameSet) (hne : names ≠ ∅)
    (hnames : ∀ name ∈ names, Listable name) :
    (∀ report facts, ((warnOf names).run report facts).report =
      { verdict := .warn, lines := report.lines ++ [leakLine names] }) ∧
    (∃ listing, (leakLine names).text = "Possibly leaked socket handle(s): " ++ listing ∧
      (∀ name, name ∈ listedNames listing ↔ name ∈ names) ∧
      (listedNames listing).Pairwise (fun a b => Text.codePoints a < Text.codePoints b) ∧
      ("" ∈ names → (listedNames listing).head? = some "")) ∧
    (∀ others : NameSet, others ≠ ∅ → (∀ name ∈ others, Listable name) →
      leakLine others = leakLine names → others = names) ∧
    ∀ first second : NameSet.History, (∀ name, first.Keeps name ↔ second.Keeps name) →
      leakLine first.outcome = leakLine second.outcome := by
  refine ⟨fun _ _ => rfl, ⟨Text.commaSeparated (names.toList.map shownName), rfl, ?_⟩, ?_, ?_⟩
  · rw [listedNames_commaSeparated hne hnames]
    refine ⟨fun _ => Iff.rfl, names.increasing.imp Text.codePoints_lt, fun hempty => ?_⟩
    -- no text is before the one without characters
    exact NameSet.head?_toList_of_not_lt hempty fun other => List.not_lt_nil other.toList
  · intro others hne' hothers hline
    exact eq_of_leakWarning_eq hne hnames hne' hothers (congrArg Line.text hline)
  · intro first second hkeeps
    rw [NameSet.History.outcome_eq hkeeps]

/-- A named handle and an unnamed one, with another that came and went. -/
def detour : NameSet.History :=
  .removed (.merged (.added (.added .nothing "spare") "sock") (.added .nothing unassigned)) "spare"

theorem detour_can_be_read_back :
    detour.outcome ≠ ∅ ∧ (∀ name ∈ detour.outcome, Listable name) ∧
      (leakLine detour.outcome).text = "Possibly leaked socket handle(s): <unassigned>, sock" ∧
      (∀ name, name ∈ listedNames "<unassigned>, sock" ↔ detour.Keeps name) ∧
      (listedNames "<unassigned>, sock").head? = some "" ∧
      leakLine detour.outcome =
        leakLine (NameSet.History.added (.added .nothing unassigned) "sock").outcome := by
  have hne : detour.outcome ≠ ∅ := by decide +kernel
  have hnames : ∀ name ∈ detour.outcome, Listable name := by
    have hlisted : ∀ name ∈ detour.outcome.toList, Listable name := by decide +kernel
    exact hlisted
  have htext : (leakLine detour.outcome).text =
      "Possibly leaked socket handle(s): " ++ "<unassigned>, sock" := by decide +kernel
  obtain ⟨-, ⟨listing, hlisting, hmem, -, hfirst⟩, -, hline⟩ :=
    leakWarning_can_be_read_back detour.outcome hne hnames
  obtain rfl : "<unassigned>, sock" = listing :=
    (String.append_right_inj _).mp (htext.symm.trans hlisting)
  refine ⟨hne, hnames, htext, ?_, hfirst (by decide +kernel), hline _ _ ?_⟩
  · intro name
    rw [hmem, NameSet.History.mem_outcome]
  · intro name
    simp only [detour, NameSet.History.Keeps, unassigned, or_false]
    grind

-- a name with a comma passes for two names
example : leakLine ((∅ : NameSet).insert "in, out") =
    leakLine (((∅ : NameSet).insert "in").insert "out") := by decide +kernel

end ScriptLint
