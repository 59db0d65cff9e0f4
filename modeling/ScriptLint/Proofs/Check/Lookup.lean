import Mathlib.Data.List.Find
import ScriptLint.Check.Catalog
import ScriptLint.Proofs.Text.Title

/-!
# Looking up a check by its name

A catalog is searched from its first check on, and a check is found by its name or by its title. No
two checks have one name, so of all checks only one has the name that is looked for; but a check
before it may have this name for its title, and is found in its place. Such a check hides the one
with the name.

A title cannot be every text. A name that does not have the shape of a title is never hidden,
whatever else is in the catalog, and every other name is hidden in some catalog.

## Main results

* `find_name_eq`: what the name of a check finds
* `find_name_eq_ok_iff`: when it finds the check
* `find_name_gives_check_unless_titled`: a name finds its check unless an earlier check has it for a
  title, and only names with the shape of a title are in danger
-/

namespace ScriptLint.Catalog

variable {α : Type} {catalog : Catalog α} {before after : List (Check α)} {check : Check α}

/-- A check that is found has the name that was looked for, or has it for its title. -/
theorem name_or_title_of_find {name : String} (h : catalog.find name = .ok check) :
    check.name = name ∨ check.title = name := by
  unfold find at h
  split at h
  · next found hfound =>
    obtain rfl : found = check := Except.ok.inj h
    simpa using List.find?_some hfound
  · cases h

/-- The checks before a check have other names. -/
theorem name_ne_of_mem_before (hsplit : catalog.checks = before ++ check :: after)
    {other : Check α} (hother : other ∈ before) : other.name ≠ check.name := by
  have hdistinct := catalog.distinct
  rw [hsplit, List.map_append, List.nodup_append] at hdistinct
  obtain ⟨-, -, hdisjoint⟩ := hdistinct
  exact hdisjoint _ (List.mem_map_of_mem hother) _ List.mem_cons_self

/-- **What a name finds**: the first check before the one of this name that has it for its title,
and if there is none, the check of this name. -/
theorem find_name_eq (hsplit : catalog.checks = before ++ check :: after) :
    catalog.find check.name = .ok ((before.find? (·.title = check.name)).getD check) := by
  -- before the check of this name, only a title can match
  have hbefore : before.find? (fun other => other.name = check.name ∨ other.title = check.name) =
      before.find? (·.title = check.name) := by
    refine List.find?_congr ?_
    intro other hother
    simp [name_ne_of_mem_before hsplit hother]
  rw [find, hsplit, List.find?_append, hbefore, List.find?_cons_of_pos (by simp)]
  cases before.find? (·.title = check.name) with
  | none => rfl
  | some other => rfl

/-- **When a name finds its check**: no check before it has the name for its title. -/
theorem find_name_eq_ok_iff (hsplit : catalog.checks = before ++ check :: after) :
    catalog.find check.name = .ok check ↔ ∀ other ∈ before, other.title ≠ check.name := by
  rw [find_name_eq hsplit]
  cases hfind : before.find? (·.title = check.name) with
  | none =>
    refine iff_of_true rfl ?_
    intro other hother
    simpa using List.find?_eq_none.mp hfind other hother
  | some found =>
    have hmem := List.mem_of_find?_eq_some hfind
    refine iff_of_false ?_ ?_
    · intro heq
      obtain rfl : found = check := Except.ok.inj heq
      exact name_ne_of_mem_before hsplit hmem rfl
    · intro hother
      exact hother found hmem (by simpa using List.find?_some hfind)

/-- A name that no title can be finds its check. -/
theorem find_name_of_not_titleShaped (hsplit : catalog.checks = before ++ check :: after)
    (h : ¬ Text.TitleShaped check.name.toList) : catalog.find check.name = .ok check := by
  refine (find_name_eq_ok_iff hsplit).mpr ?_
  intro other _ htitle
  rw [← htitle] at h
  exact h (Text.titleShaped_title other.name)

/-- A name that can be a title is hidden by a check that is put before all others. -/
theorem exists_find_name_ne (h : Text.TitleShaped check.name.toList) :
    ∃ table, check ∈ (ofTable table).checks ∧ (ofTable table).find check.name ≠ .ok check := by
  obtain ⟨name, hne, htitle⟩ := h.exists_ne_title_eq
  let earlier : Check α := { check with name }
  have hchecks : (ofTable [earlier, check]).checks = [earlier] ++ check :: [] := by
    simp [ofTable, Check.firsts, earlier, hne.symm]
  refine ⟨[earlier, check], ?_, ?_⟩
  · rw [hchecks]
    exact List.mem_append_right _ List.mem_cons_self
  · rw [Ne, find_name_eq_ok_iff hchecks]
    intro hother
    exact hother earlier List.mem_cons_self htitle

/-- **A name finds its check unless an earlier check has it for a title.** The check found in its
place is the first such check, and only a name with the shape of a title can be hidden so: these
are the names that do not find their check in every catalog. -/
theorem find_name_gives_check_unless_titled (table : List (Check α)) (check : Check α)
    (h : check ∈ (ofTable table).checks) :
    (∃ before after, (ofTable table).checks = before ++ check :: after ∧
      (ofTable table).find check.name = .ok ((before.find? (·.title = check.name)).getD check) ∧
      ((ofTable table).find check.name = .ok check ↔
        ∀ other ∈ before, other.title ≠ check.name)) ∧
    ((∀ table' : List (Check α), check ∈ (ofTable table').checks →
        (ofTable table').find check.name = .ok check) ↔
      ¬ Text.TitleShaped check.name.toList) := by
  refine ⟨?_, ?_, ?_⟩
  · obtain ⟨before, after, hsplit⟩ := List.append_of_mem h
    exact ⟨before, after, hsplit, find_name_eq hsplit, find_name_eq_ok_iff hsplit⟩
  · intro hfinds hshaped
    obtain ⟨table', hmem, hne⟩ := exists_find_name_ne hshaped
    exact hne (hfinds table' hmem)
  · intro hnot table' hmem
    obtain ⟨before, after, hsplit⟩ := List.append_of_mem hmem
    exact find_name_of_not_titleShaped hsplit hnot

/-- A check of a name that does nothing. -/
def idleCheck (name : String) : Check Unit :=
  { name, body := .done () }

/-- Two checks of which the first has the name of the second for its title, and one whose name no
title can be. -/
def probes : List (Check Unit) :=
  [idleCheck "CheckProbe", idleCheck "Probe", idleCheck "SocketLeak"]

theorem probes_find_socketLeak :
    idleCheck "SocketLeak" ∈ (ofTable probes).checks ∧
      ¬ Text.TitleShaped "SocketLeak".toList ∧
      (ofTable probes).find "SocketLeak" = .ok (idleCheck "SocketLeak") := by
  have hmem : idleCheck "SocketLeak" ∈ (ofTable probes).checks := by
    simp [ofTable, probes, Check.firsts, idleCheck]
  have hshape : ¬ Text.TitleShaped "SocketLeak".toList := by
    intro h
    exact absurd h.capitals (by decide)
  have hfind := (find_name_gives_check_unless_titled probes _ hmem).2.mpr hshape
  exact ⟨hmem, hshape, hfind probes hmem⟩

/-- **A check that no name finds**: the check before it has its name for a title, and its own title
is this name too. -/
theorem probe_is_hidden :
    idleCheck "Probe" ∈ (ofTable probes).checks ∧
      (ofTable probes).find "Probe" = .ok (idleCheck "CheckProbe") ∧
      ∀ name, (ofTable probes).find name ≠ .ok (idleCheck "Probe") := by
  have hfind : (ofTable probes).find "Probe" = .ok (idleCheck "CheckProbe") := by rfl
  refine ⟨by simp [ofTable, probes, Check.firsts, idleCheck], hfind, ?_⟩
  intro name hname
  -- the name and the title of the check are both the name that finds the other one
  have hprobe : name = "Probe" := by
    rcases name_or_title_of_find hname with h | h
    · exact h.symm
    · exact h.symm.trans (by decide +kernel)
  rw [hprobe, hfind] at hname
  exact absurd (congrArg Check.name (Except.ok.inj hname)) (by decide)

end ScriptLint.Catalog
