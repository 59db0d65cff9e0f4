import ScriptLint.Proofs.Leak.Survival

/-!
# What a walk drops

A name that is held before a statement and not after it was dropped on the way. Here it is traced to
the statement that dropped it: a return of a variable of that name, or a closing call that is given
such a variable first. A close or a return of anything but a variable drops nothing.

A variable counts as one of its name also where it is indexed. So a close of one element drops the
whole variable, and with it the handles in all other elements: `arrayScript` opens two handles,
closes one, and nothing is found. Where no element is closed or returned, a name is dropped only by
a close or a return of the bare variable.

## Main definitions

* `Script.HandsOver`: the statements that close or return a part
* `Script.IsBareVariable`, `Script.IsElement`: a variable without an index, and one with an index
* `Script.ReleasesBare`: the statements that close or return the bare variable of a name

## Main results

* `Script.walk_of_handsOver`: what the walk of a close or a return does
* `Script.exists_releases_of_dropped`: a name that is dropped was released on the way
* `Script.walk_drops_only_released_variables`: what drops a name, and what does not
* `Script.close_of_element_drops_array`: a close of one element drops the variable
-/

namespace ScriptLint

namespace Script

section Definitions

variable (script : Script)

/-- A statement that closes or returns a part: a return of it, or a closing call that is given it
first. -/
def HandsOver (r : Nat) (part : Option Nat) : Prop :=
  match script.nodes[r]? with
  | some (.returns value) => value = part
  | some (.call callee args) => callee ∈ closers ∧ args.head?.bind (·.value) = part
  | _ => False

/-- A variable of a name, without an index. -/
def IsBareVariable (part : Option Nat) (name : String) : Prop :=
  part.bind (script.nodes[·]?) = some (.lvalue name [])

/-- An element of a variable. -/
def IsElement (part : Option Nat) : Prop :=
  ∃ name indexes, part.bind (script.nodes[·]?) = some (.lvalue name indexes) ∧ indexes ≠ []

/-- A statement that closes or returns the bare variable of a name. -/
def ReleasesBare (r : Nat) (name : String) : Prop :=
  ∃ part, script.HandsOver r part ∧ script.IsBareVariable part name

end Definitions

variable {script : Script} {r : Nat} {part : Option Nat} {held : NameSet} {name : String}

/-! ## Closing and returning -/

/-- A name is released by closing or returning a variable of that name. -/
theorem releases_iff :
    script.Releases r name ↔ ∃ part, script.HandsOver r part ∧ script.IsVariable part name := by
  unfold Releases HandsOver
  cases script.nodes[r]? with
  | none => simp
  | some node =>
    cases node with
    | call callee args => simp [and_assoc]
    | _ => simp

/-- A variable that is no element is a bare one. -/
theorem IsVariable.isBareVariable (h : script.IsVariable part name)
    (helement : ¬ script.IsElement part) : script.IsBareVariable part name := by
  obtain ⟨indexes, hpart⟩ := h
  by_cases hbare : indexes = []
  · rw [hbare] at hpart
    exact hpart
  · exact absurd ⟨name, indexes, hpart, hbare⟩ helement

/-- **The walk of a close or a return** releases what is closed or returned, and flushes nothing. -/
theorem walk_of_handsOver (hgrounded : script.Grounded) (h : script.HandsOver r part)
    (held : NameSet) : script.walk r held = .still (script.release part held) := by
  unfold HandsOver at h
  split at h
  · next value hnode =>
    subst h
    rw [walk_eq hgrounded hnode]
    rfl
  · next callee args hnode =>
    obtain ⟨hcloses, rfl⟩ := h
    -- what closes neither ends the script nor opens a handle, and those are asked first
    have hexits : callee ∉ exits := openers_disjoint.2 callee hcloses
    have hopens : callee ∉ openers := fun hopens => (openers_disjoint.1 callee hopens).2 hcloses
    rw [walk_eq hgrounded hnode]
    show script.callEffect callee args held = _
    rw [callEffect, if_neg hexits, if_neg hopens, if_pos hcloses]
  · exact h.elim

theorem release_of_isVariable (h : script.IsVariable part name) :
    script.release part held = held.erase name := by
  rw [release, lvalueName?_eq_some_iff.mpr h]

theorem release_of_no_variable (h : ∀ name, ¬ script.IsVariable part name) :
    script.release part held = held := by
  have hnone : script.lvalueName? part = none := by
    apply Option.eq_none_iff_forall_ne_some.mpr
    intro name hname
    exact h name (lvalueName?_eq_some_iff.mp hname)
  rw [release, hnone]

/-! ## What drops a name -/

/-- **A name that is dropped was released on the way**, by a statement that is walked. -/
theorem exists_releases_of_dropped (hgrounded : script.Grounded) (hname : name ∈ held)
    (hdropped : name ∉ (script.walk r held).held) :
    ∃ t, script.Walked [r] t ∧ script.Releases t name := by
  by_contra hnone
  apply hdropped
  apply keeps_walk hgrounded r ?_ hname
  intro t hwalked hreleases
  exact hnone ⟨t, hwalked, hreleases⟩

/-- If no element is closed or returned on the way, a name that is dropped was released as a bare
variable. -/
theorem exists_releasesBare_of_dropped (hgrounded : script.Grounded)
    (hbare : ∀ t part, script.Walked [r] t → script.HandsOver t part → ¬ script.IsElement part)
    (hname : name ∈ held) (hdropped : name ∉ (script.walk r held).held) :
    ∃ t, script.Walked [r] t ∧ script.ReleasesBare t name := by
  obtain ⟨t, hwalked, hreleases⟩ := exists_releases_of_dropped hgrounded hname hdropped
  obtain ⟨part, hover, hvariable⟩ := releases_iff.mp hreleases
  exact ⟨t, hwalked, part, hover, hvariable.isBareVariable (hbare t part hwalked hover)⟩

/-- **What drops a name, and what does not.** In every script that is put together, a name that is
held before a statement and not after it was released on the way: some statement that is walked
returns a variable of that name, or closes it. If no element of a variable is closed or returned on
the way, it was released as a bare variable. A close or a return of a variable, be it indexed or
not, drops its name and nothing else; a close or a return of anything that is no variable drops
nothing. -/
theorem walk_drops_only_released_variables {steps : List Step} {top : List Nat} {script : Script}
    (h : Script.build steps top = .ok script) :
    (∀ r held, ∀ name ∈ held, name ∉ (script.walk r held).held →
      ∃ t, script.Walked [r] t ∧ script.Releases t name) ∧
    (∀ r, (∀ t part, script.Walked [r] t → script.HandsOver t part → ¬ script.IsElement part) →
      ∀ held, ∀ name ∈ held, name ∉ (script.walk r held).held →
        ∃ t, script.Walked [r] t ∧ script.ReleasesBare t name) ∧
    ∀ r part held, script.HandsOver r part →
      (∀ name, script.IsVariable part name → script.walk r held = .still (held.erase name)) ∧
      ((∀ name, ¬ script.IsVariable part name) → script.walk r held = .still held) := by
  have hgrounded := grounded_of_build h
  refine ⟨?_, ?_, ?_⟩
  · intro r held name hname hdropped
    exact exists_releases_of_dropped hgrounded hname hdropped
  · intro r hbare held name hname hdropped
    exact exists_releasesBare_of_dropped hgrounded hbare hname hdropped
  · intro r part held hover
    rw [walk_of_handsOver hgrounded hover]
    constructor
    · intro name hvariable
      rw [release_of_isVariable hvariable]
    · intro hnone
      rw [release_of_no_variable hnone]

/-! ## An array of handles -/

/-- Two handles are opened in two elements of a variable, and one of the elements is closed. -/
def arraySteps : List Step :=
  [.call "open_sock_tcp" [], .integer 0, .element "socks" 1, .assignTo 2 0, .integer 1,
    .element "socks" 4, .assignTo 5 0, .call "close" [2], .call "close" [0]]

/-- The script of these steps. Its last node is a close of something that is no variable. -/
def arrayScript : Script where
  nodes := #[.call "open_sock_tcp" [], .integer 0, .lvalue "socks" [some 1],
    .assignment (some 2) (some 0), .integer 1, .lvalue "socks" [some 4],
    .assignment (some 5) (some 0), .call "close" [⟨none, some 2⟩], .call "close" [⟨none, some 0⟩]]
  top := [3, 6, 7]

theorem arrayScript_drops :
    Script.build arraySteps [3, 6, 7] = .ok arrayScript ∧
      (∃ t, arrayScript.Walked [7] t ∧ arrayScript.Releases t "socks") ∧
      arrayScript.walk 7 ((∅ : NameSet).insert "socks") =
        .still (((∅ : NameSet).insert "socks").erase "socks") ∧
      arrayScript.walk 8 ((∅ : NameSet).insert "socks") =
        .still ((∅ : NameSet).insert "socks") := by
  have hbuild : Script.build arraySteps [3, 6, 7] = .ok arrayScript := by rfl
  obtain ⟨hreleased, -, hover⟩ := walk_drops_only_released_variables hbuild
  have hdropped : "socks" ∉ (arrayScript.walk 7 ((∅ : NameSet).insert "socks")).held := by
    decide +kernel
  refine ⟨hbuild, hreleased 7 _ "socks" (by simp) hdropped, ?_, ?_⟩
  · exact (hover 7 (some 2) _ ⟨by decide, rfl⟩).1 "socks" ⟨[some 1], rfl⟩
  · refine (hover 8 (some 0) _ ⟨by decide, rfl⟩).2 ?_
    rintro name ⟨indexes, hnode⟩
    cases hnode

/-- **A close of one element drops the variable**: no statement on the way closes or returns the
bare variable, and of the handle in the other element nothing is found. -/
theorem close_of_element_drops_array :
    Script.build arraySteps [3, 6, 7] = .ok arrayScript ∧
      "socks" ∉ (arrayScript.walk 7 ((∅ : NameSet).insert "socks")).held ∧
      (¬ ∃ t, arrayScript.Walked [7] t ∧ arrayScript.ReleasesBare t "socks") ∧
      arrayScript.findings = [] := by
  refine ⟨rfl, by decide +kernel, ?_, by decide +kernel⟩
  rintro ⟨t, -, part, -, hpart⟩
  -- every variable of the script has an index
  obtain ⟨u, -, hnode⟩ := Option.bind_eq_some_iff.mp hpart
  simpa [arrayScript] using Array.mem_of_getElem? hnode

end Script

end ScriptLint
