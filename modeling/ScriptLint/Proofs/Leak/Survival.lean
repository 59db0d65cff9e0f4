import ScriptLint.Proofs.Leak.Openings

/-!
# A handle that is never released is reported

A name under which a handle is opened has a long way to go before it stands in a warning. Statements
follow the one that opens the handle, the branches of conditionals are merged, other conditionals
are skipped, and at last the bodies are put together. Here it is shown to arrive, if no statement of
its body closes or returns the variable of that name.

Two things could stop it. A statement that follows could drop the name; but only releasing drops
names, and all else keeps them. Or the opening statement is never come to, because a conditional
around it is skipped. That takes a condition such as `!x` on a variable that is held at this point.
No such variable is held if no handle is opened under it anywhere in the body: this is where what
may be held on the way has to be known in advance, whatever way that is.

A statement may be shared, so that it stands both inside and outside of such a conditional. One way
to it that no conditional can bar is enough.

Of a declaration only those entries count that are assignments, and it is the declaration that opens
what they open. No entry is walked. Where an entry is a block, a handle that is opened in it is
missed.

## Main definitions

* `Script.Guards`: the conditionals that may be skipped in the walk of a body
* `Script.Exposed`: the statements that the walk of a body comes to, whatever is skipped
* `Script.Includes`: the statements of a body, the entries of declarations among them

## Main results

* `Script.exposed_of_enclosing`: a statement that no guard encloses is exposed
* `Script.keeps_walk`: a walk keeps what no statement on it releases
* `Script.Exposed.yields_sequence`: what an exposed statement is sure to leave behind, the body is
* `Script.Exposed.mem_held_audit`: what an exposed statement opens and nothing releases is held
* `Script.leak_outside_guards_is_reported`: no leak outside of guards is missed
* `Script.handle_in_declared_block_is_missed`: a leak among the entries of a declaration is
-/

namespace ScriptLint

namespace Script

section Definitions

variable (script : Script) (body : List Nat)

/-- A conditional on the failure of a variable under which a handle is opened in a body. The walk of
the body may skip it. -/
def Guards (s : Nat) : Prop :=
  ∃ cond yes no name, script.nodes[s]? = some (.branch cond yes no) ∧
    script.testedName? cond = some name ∧ script.OpenedIn body name ∧ name ∉ sharedVariables

/-- The statements that are reached in a body outside of guards: those of the body, and with a
compound statement that is no guard the statements of its alternatives. -/
inductive Exposed : Nat → Prop
  | member {r : Nat} (hmem : r ∈ body) : Exposed r
  | inner {s r : Nat} {part : List Nat} (houter : Exposed s) (hfree : ¬ script.Guards body s)
      (hpart : part ∈ script.alternatives s) (hmem : r ∈ part) : Exposed r

end Definitions

variable {script : Script} {body : List Nat}

theorem Exposed.walked {r : Nat} (h : script.Exposed body r) : script.Walked body r := by
  induction h with
  | member hmem => exact .member hmem
  | inner _ _ hpart hmem ih => exact .inner ih hpart hmem

/-- **A statement that no guard encloses is exposed.** A statement encloses those that are walked in
its alternatives. -/
theorem exposed_of_enclosing {r : Nat} (hwalked : script.Walked body r)
    (hfree : ∀ s part, script.Walked body s → part ∈ script.alternatives s →
      script.Walked part r → ¬ script.Guards body s) : script.Exposed body r := by
  induction hwalked with
  | member hmem => exact .member hmem
  | @inner s r part houter hpart hmem ih =>
    refine .inner (ih fun s' part' houter' hpart' hwalked => ?_) ?_ hpart hmem
    · exact hfree s' part' houter' hpart' (hwalked.inner hpart hmem)
    · exact hfree s part houter hpart (.member hmem)

/-- In a list of plain statements only these are walked. -/
theorem Walked.mem_of_plain {r : Nat} (hwalked : script.Walked body r)
    (hplain : ∀ s ∈ body, script.alternatives s = []) : r ∈ body := by
  induction hwalked with
  | member hmem => exact hmem
  | inner _ hpart _ ih =>
    rw [hplain _ ih] at hpart
    cases hpart

/-! ## What keeps a name -/

variable {name : String}

theorem mem_held_sequence_of_forall {held : NameSet}
    (h : ∀ t ∈ body, ∀ held : NameSet, name ∈ held → name ∈ (script.walk t held).held)
    (hname : name ∈ held) : name ∈ (Walk.sequence script.walk body held).held := by
  induction body generalizing held with
  | nil => exact hname
  | cons r rest ih =>
    apply ih fun t ht => h t (List.mem_cons_of_mem _ ht)
    exact h r List.mem_cons_self held hname

/-- **A walk keeps what no statement on it releases**, whatever else is held. -/
theorem keeps_walk (hgrounded : script.Grounded) (r : Nat)
    (hkept : ∀ t, script.Walked [r] t → ¬ script.Releases t name) {held : NameSet}
    (hname : name ∈ held) : name ∈ (script.walk r held).held := by
  -- what is walked in a part of a statement is walked in the statement
  have hinner : ∀ {r t : Nat} {part : List Nat}, part ∈ script.alternatives r → t ∈ part →
      (∀ s, script.Walked [r] s → ¬ script.Releases s name) →
        ∀ s, script.Walked [t] s → ¬ script.Releases s name :=
    fun hpart ht h s hs => h s (hs.of_forall (Walked.of_alternative hpart ht))
  induction r using hgrounded.statement_induction generalizing held with
  | plain r hplain =>
    rw [(walk_of_plain hgrounded hplain held).1]
    exact Or.inr ⟨hname, hkept r (.member (by simp))⟩
  | branch r cond yes no hnode ihyes ihno =>
    rcases walk_of_branch hgrounded hnode held with ⟨_, -, -, hwalk⟩ | hwalk
    · rw [hwalk]
      exact hname
    · -- of the two branches, either one would do
      have hyes : yes.toList ∈ script.alternatives r := by simp [alternatives, hnode]
      rw [hwalk]
      refine NameSet.mem_union.mpr (Or.inl ?_)
      exact mem_held_sequence_of_forall (fun t ht _ => ihyes t ht (hinner hyes ht hkept)) hname
  | block r body hnode ih =>
    have hbody : body ∈ script.alternatives r := by simp [alternatives, hnode]
    rw [walk_of_block hgrounded hnode]
    exact mem_held_sequence_of_forall (fun t ht _ => ih t ht (hinner hbody ht hkept)) hname

/-! ## What is sure to be held -/

/-- A change after which a name is held, as long as only names under which a handle is opened in a
body, and no shared variables, are held before. -/
def Yields (script : Script) (body : List Nat) (name : String) (change : NameSet → Walk) : Prop :=
  ∀ held : NameSet, (∀ other ∈ held, script.OpenedIn body other ∧ other ∉ sharedVariables) →
    name ∈ (change held).held

theorem Opens.plain {r : Nat} (h : script.Opens r name) : script.alternatives r = [] := by
  unfold Opens at h
  unfold alternatives
  split
  · next hnode =>
    rw [hnode] at h
    exact h.elim
  · next hnode =>
    rw [hnode] at h
    exact h.elim
  · rfl

theorem Opens.yields (hgrounded : script.Grounded) {r : Nat} (h : script.Opens r name)
    (hshared : name ∉ sharedVariables) : script.Yields body name (script.walk r) := by
  intro held _
  rw [(walk_of_plain hgrounded h.plain held).1]
  exact Or.inl ⟨h, hshared⟩

/-- **A statement that is no guard is entered**: what one of its alternatives is sure to leave
behind, so is the statement. -/
theorem yields_walk_of_alternative (hgrounded : script.Grounded) {s : Nat} {part : List Nat}
    (hfree : ¬ script.Guards body s) (hpart : part ∈ script.alternatives s)
    (h : script.Yields body name (Walk.sequence script.walk part)) :
    script.Yields body name (script.walk s) := by
  intro held hheld
  unfold alternatives at hpart
  split at hpart
  · next cond yes no hnode =>
    rcases walk_of_branch hgrounded hnode held with ⟨tested, hcond, hmem, -⟩ | hwalk
    · -- it is skipped only if the variable that it tests is held, and so opened in the body
      obtain ⟨hopened, hshared⟩ := hheld tested hmem
      exact absurd ⟨cond, yes, no, tested, hnode, hcond, hopened, hshared⟩ hfree
    · rw [hwalk]
      refine NameSet.mem_union.mpr ?_
      rcases List.mem_pair.mp hpart with rfl | rfl
      · exact Or.inl (h held hheld)
      · exact Or.inr (h held hheld)
  · next inner hnode =>
    obtain rfl := List.mem_singleton.mp hpart
    rw [walk_of_block hgrounded hnode]
    exact h held hheld
  · cases hpart

section Kept

variable (hgrounded : script.Grounded)
  (hkept : ∀ t, script.Walked body t → ¬ script.Releases t name)

include hgrounded hkept

/-- What one of the statements of a list is sure to leave behind, the list is: those before it hold
nothing but what is opened in the body, and those after it keep the name. -/
theorem yields_sequence_of_mem {part : List Nat} (hinner : ∀ t ∈ part, script.Walked body t)
    {r : Nat} (hr : r ∈ part) (h : script.Yields body name (script.walk r)) :
    script.Yields body name (Walk.sequence script.walk part) := by
  induction part with
  | nil => cases hr
  | cons first rest ih =>
    intro held hheld
    have hrest : ∀ t ∈ rest, script.Walked body t :=
      fun t ht => hinner t (List.mem_cons_of_mem _ ht)
    show name ∈ (Walk.sequence script.walk rest (script.walk first held).held).held
    rcases List.mem_cons.mp hr with rfl | hr
    · refine mem_held_sequence_of_forall (fun t ht _ hname => ?_) (h held hheld)
      refine keeps_walk hgrounded t (fun s hs => hkept s ?_) hname
      exact hs.of_forall (hrest t ht).singleton
    · apply ih hrest hr
      refine (within_walk hgrounded first (fun other hopened hshared => ?_) hheld).held
      exact ⟨hopened.of_forall (hinner first List.mem_cons_self).singleton, hshared⟩

/-- **What an exposed statement is sure to leave behind, the body is.** The induction goes outwards:
from the statement to the list that it stands in, to the statement around that list, and so on. -/
theorem Exposed.yields_sequence {r : Nat} (hexposed : script.Exposed body r)
    (h : script.Yields body name (script.walk r)) :
    script.Yields body name (Walk.sequence script.walk body) := by
  induction hexposed with
  | member hmem => exact yields_sequence_of_mem hgrounded hkept (fun _ => .member) hmem h
  | inner houter hfree hpart hmem ih =>
    apply ih
    apply yields_walk_of_alternative hgrounded hfree hpart
    exact yields_sequence_of_mem hgrounded hkept (fun _ => .inner houter.walked hpart) hmem h

/-- What an exposed statement opens, and no statement of its body releases, an audit holds in the
end. -/
theorem Exposed.mem_held_audit (hbody : body ∈ script.bodies) (hshared : name ∉ sharedVariables)
    {r : Nat} (hexposed : script.Exposed body r) (hopens : script.Opens r name) :
    name ∈ script.audit.held := by
  have hyields := hexposed.yields_sequence hgrounded hkept (hopens.yields hgrounded hshared)
  exact Script.mem_held_audit.mpr ⟨body, hbody, hyields ∅ (by simp)⟩

end Kept

/-! ## The last warning -/

/-- What is held in the end is warned of last, if there is anything. -/
theorem findings_of_mem_held (hname : name ∈ script.audit.held) :
    script.findings = script.audit.flushes.filter (!·.isEmpty) ++ [script.audit.held] := by
  have hsome : script.audit.held.isEmpty = false := by
    rw [Bool.eq_false_iff, ne_eq, NameSet.isEmpty_iff]
    intro hempty
    rw [hempty] at hname
    exact NameSet.not_mem_empty name hname
  simp [findings, hsome]

/-- The last line that an audit adds to a report lists what is held in the end, if there is
anything. -/
theorem lines_auditFile_of_mem_held (hname : name ∈ script.audit.held) (file : String)
    (report : Report) (facts : Facts) :
    ∃ before, ((auditFile ⟨file, script⟩).run report facts).report.lines =
      report.lines ++ before ++ [leakLine script.audit.held] := by
  refine ⟨(script.audit.flushes.filter (!·.isEmpty)).map leakLine, ?_⟩
  rw [lines_auditFile, findings_of_mem_held hname, List.map_append, ← List.append_assoc]
  rfl

/-- **No leak outside of guards is missed.** Let a handle be opened in a body of a script that is put
together, under a name that is no shared variable. If the statement that opens it is walked, if no
handle is opened in this body under the variable that a conditional around it tests for failure, and
if no statement that is walked in this body closes or returns the variable of that name, then the
last line that an audit of the script adds to a report is a warning that lists this name, or
`<unassigned>` if there is none. Statements are walked through blocks and the branches of
conditionals; a declaration opens what its entries that are assignments open. -/
theorem leak_outside_guards_is_reported {steps : List Step} {top : List Nat} {script : Script}
    (h : Script.build steps top = .ok script) {body : List Nat} (hbody : body ∈ script.bodies)
    {name : String} (hshared : name ∉ sharedVariables) {r : Nat}
    (hwalked : script.Walked body r) (hopens : script.Opens r name)
    (hfree : ∀ s cond yes no tested, script.Walked body s →
      script.nodes[s]? = some (.branch cond yes no) →
      script.Walked yes.toList r ∨ script.Walked no.toList r →
      script.testedName? cond = some tested → ¬ script.OpenedIn body tested)
    (hkept : ∀ t, script.Walked body t → ¬ script.Releases t name)
    (file : String) (report : Report) (facts : Facts) :
    ∃ before shown, (if name = "" then "<unassigned>" else name) ∈ shown ∧
      ((auditFile ⟨file, script⟩).run report facts).report.lines =
        report.lines ++ before ++
          [⟨.warn, "Possibly leaked socket handle(s): " ++ String.intercalate ", " shown⟩] := by
  have hexposed : script.Exposed body r := by
    refine exposed_of_enclosing hwalked fun s part houter hpart hinner hguards => ?_
    obtain ⟨cond, yes, no, tested, hnode, htested, hopened, -⟩ := hguards
    -- the alternatives of a conditional are its branches, so it stands around the statement
    have hbranch : script.Walked yes.toList r ∨ script.Walked no.toList r := by
      simp only [alternatives, hnode, List.mem_pair] at hpart
      rcases hpart with rfl | rfl
      · exact Or.inl hinner
      · exact Or.inr hinner
    exact hfree s cond yes no tested houter hnode hbranch htested hopened
  have hheld := hexposed.mem_held_audit (grounded_of_build h) hkept hbody hshared hopens
  obtain ⟨before, hlines⟩ := lines_auditFile_of_mem_held hheld file report facts
  exact ⟨before, script.audit.held.toList.map shownName, List.mem_map_of_mem hheld, hlines⟩

/-- A function declares a handle that it opens, inside a conditional on the failure of some other
variable. What follows tests the handle, and closes the other variable. -/
def probeSteps : List Step :=
  [.call "open_sock_tcp" [], .reference "other", .negation 1, .locals [⟨"soc", some 0⟩],
    .reference "soc", .negation 4, .call "exit" [], .branch 5 6 none, .call "close" [1],
    .block [3, 7, 8], .branch 2 9 none, .function "probe" [] [10]]

/-- The script of these steps. -/
def probeScript : Script where
  nodes := #[.call "open_sock_tcp" [], .lvalue "other" [], .expression .not none (some 1),
    .identifier "soc", .assignment (some 3) (some 0), .locals [4], .lvalue "soc" [],
    .expression .not none (some 6), .call "exit" [], .branch (some 7) (some 8) none,
    .call "close" [⟨none, some 1⟩], .block [5, 9, 10], .branch (some 2) (some 11) none,
    .block [12], .function "probe" [] (some 13)]
  top := [8]

theorem probeScript_leak_is_reported :
    Script.build probeSteps [6] = .ok probeScript ∧ [13] ∈ probeScript.bodies ∧
      probeScript.Walked [13] 5 ∧ probeScript.Opens 5 "soc" ∧
      (∀ s cond yes no tested, probeScript.Walked [13] s →
        probeScript.nodes[s]? = some (.branch cond yes no) →
        probeScript.Walked yes.toList 5 ∨ probeScript.Walked no.toList 5 →
        probeScript.testedName? cond = some tested → ¬ probeScript.OpenedIn [13] tested) ∧
      (∀ t, probeScript.Walked [13] t → ¬ probeScript.Releases t "soc") ∧
      ∃ before shown, "soc" ∈ shown ∧
        ((auditFile ⟨"probe", probeScript⟩).run {} .none).report.lines = before ++
          [⟨.warn, "Possibly leaked socket handle(s): " ++ String.intercalate ", " shown⟩] := by
  have hbuild : Script.build probeSteps [6] = .ok probeScript := by rfl
  have hbody : [13] ∈ probeScript.bodies := by decide
  have hopens : probeScript.Opens 5 "soc" :=
    ⟨4, by simp, some 3, some 0, rfl, ⟨_, _, rfl, by decide⟩, Or.inr (Or.inl rfl)⟩
  have hwalked : probeScript.Walked [13] 5 := by
    have htest : probeScript.Walked [13] 12 :=
      .inner (.member (by simp)) (by decide : [12] ∈ probeScript.alternatives 13) (by simp)
    have hinner : probeScript.Walked [13] 11 :=
      htest.inner (by decide : [11] ∈ probeScript.alternatives 12) (by simp)
    exact hinner.inner (by decide : [5, 9, 10] ∈ probeScript.alternatives 11) (by simp)
  -- no handle is opened under the variable that is tested around the declaration
  have hother : ∀ r, ¬ probeScript.Opens r "other" := by
    have hassigns : ¬ probeScript.AssignsHandle (some 3) (some 0) "other" := by
      intro h
      have hname : probeScript.targetName (some 3) = "other" := targetName_eq_iff.mpr h.target_named
      exact absurd hname (by decide)
    intro r h
    unfold Opens at h
    split at h
    · next target value hnode =>
      obtain ⟨rfl, rfl⟩ : target = some 3 ∧ value = some 0 := by
        simpa [probeScript] using Array.mem_of_getElem? hnode
      exact hassigns h
    · next entries hnode =>
      obtain rfl : entries = [4] := by simpa [probeScript] using Array.mem_of_getElem? hnode
      obtain ⟨entry, hentry, target, value, hnode, h⟩ := h
      obtain rfl := List.mem_singleton.mp hentry
      cases hnode
      exact hassigns h
    · exact absurd h.2 (by decide)
    · exact h
  have hfree : ∀ s cond yes no tested, probeScript.Walked [13] s →
      probeScript.nodes[s]? = some (.branch cond yes no) →
      probeScript.Walked yes.toList 5 ∨ probeScript.Walked no.toList 5 →
      probeScript.testedName? cond = some tested → ¬ probeScript.OpenedIn [13] tested := by
    rintro s cond yes no tested - hnode hinner htested ⟨r, -, hr⟩
    obtain ⟨rfl, rfl, rfl⟩ | ⟨rfl, rfl, rfl⟩ :
        cond = some 7 ∧ yes = some 8 ∧ no = none ∨ cond = some 2 ∧ yes = some 11 ∧ no = none := by
      simpa [probeScript] using Array.mem_of_getElem? hnode
    · -- the conditional on the handle itself stands behind the declaration
      rcases hinner with hinner | hinner
      · exact absurd (hinner.mem_of_plain (by decide)) (by decide)
      · exact absurd (hinner.mem_of_plain (by decide)) (by decide)
    · cases htested
      exact hother r hr
  have hkept : ∀ t, probeScript.Walked [13] t → ¬ probeScript.Releases t "soc" := by
    intro t _ h
    unfold Releases at h
    split at h
    · next value hnode => simpa [probeScript] using Array.mem_of_getElem? hnode
    · next callee args hnode =>
      obtain ⟨rfl, rfl⟩ | ⟨rfl, rfl⟩ | ⟨rfl, rfl⟩ :
          callee = "open_sock_tcp" ∧ args = [] ∨ callee = "exit" ∧ args = [] ∨
            callee = "close" ∧ args = [⟨none, some 1⟩] := by
        simpa [probeScript] using Array.mem_of_getElem? hnode
      · exact absurd h.1 (by decide)
      · exact absurd h.1 (by decide)
      · exact absurd (lvalueName?_eq_some_iff.mpr h.2) (by decide)
    · exact h
  obtain ⟨before, shown, hshown, hlines⟩ := leak_outside_guards_is_reported hbuild hbody
    (by decide) hwalked hopens hfree hkept "probe" {} .none
  exact ⟨hbuild, hbody, hwalked, hopens, hfree, hkept, before, shown, hshown, hlines⟩

/-! ## What stands in a declaration -/

/-- The statements that stand in a body: those of the body itself, and with a statement those of its
alternatives and, if it is a declaration, its entries. A walk enters the alternatives only. -/
inductive Includes (script : Script) (body : List Nat) : Nat → Prop
  | member {r : Nat} (hmem : r ∈ body) : Includes script body r
  | inner {s r : Nat} {part : List Nat} (houter : Includes script body s)
      (hpart : part ∈ script.alternatives s) (hmem : r ∈ part) : Includes script body r
  | entry {s r : Nat} {entries : List Nat} (houter : Includes script body s)
      (hnode : script.nodes[s]? = some (.locals entries)) (hmem : r ∈ entries) :
      Includes script body r

/-- A handle is opened in a block that is the entry of a declaration, and nothing else is done. -/
def declaredSteps : List Step :=
  [.call "open_sock_tcp" [], .assign "s" 0, .block [1], .raw (.locals [2])]

/-- The script of these steps. -/
def declaredScript : Script where
  nodes := #[.call "open_sock_tcp" [], .lvalue "s" [], .assignment (some 1) (some 0), .block [2],
    .locals [3]]
  top := [4]

/-- **A leak among the entries of a declaration is missed.** The handle is never closed or returned,
and no conditional stands around the assignment that opens it. But the block in which it stands is no
assignment, so it does not count as an entry, and nothing is reported. -/
theorem handle_in_declared_block_is_missed :
    Script.build declaredSteps [3] = .ok declaredScript ∧ [4] ∈ declaredScript.bodies ∧
      "s" ∉ sharedVariables ∧ declaredScript.Includes [4] 2 ∧ declaredScript.Opens 2 "s" ∧
      (∀ (s : Nat) cond yes no, declaredScript.nodes[s]? ≠ some (.branch cond yes no)) ∧
      (∀ t, ¬ declaredScript.Releases t "s") ∧
      ∀ (file : String) (report : Report) (facts : Facts),
        ((auditFile ⟨file, declaredScript⟩).run report facts).report.lines = report.lines := by
  refine ⟨by rfl, by decide, by decide, ?_, ?_, ?_, ?_, ?_⟩
  · have hlocals : declaredScript.Includes [4] 4 := .member (by simp)
    have hblock : declaredScript.Includes [4] 3 :=
      hlocals.entry (rfl : declaredScript.nodes[4]? = some (.locals [3])) (by simp)
    exact hblock.inner (by decide : [2] ∈ declaredScript.alternatives 3) (by simp)
  · exact ⟨⟨_, _, rfl, by decide⟩, Or.inl ⟨_, rfl⟩⟩
  · intro s cond yes no hnode
    simpa [declaredScript] using Array.mem_of_getElem? hnode
  · intro t h
    unfold Releases at h
    split at h
    · next value hnode => simpa [declaredScript] using Array.mem_of_getElem? hnode
    · next callee args hnode =>
      obtain ⟨rfl, rfl⟩ : callee = "open_sock_tcp" ∧ args = [] := by
        simpa [declaredScript] using Array.mem_of_getElem? hnode
      exact absurd h.1 (by decide)
    · exact h
  · intro file report facts
    have hfindings : declaredScript.findings = [] := by decide +kernel
    rw [lines_auditFile, hfindings]
    exact List.append_nil _

end Script

end ScriptLint
