import ScriptLint.Proofs.Leak.Paths
import ScriptLint.Proofs.Leak.Warnings

/-!
# Where the names in warnings come from

A warning lists names that may hold an open handle. Here each of them is traced back to a statement
that opens a handle under it: for what is flushed on the way, a statement of the same body, and for
what is held in the end, a statement of some body. The shared variables are never listed.

A plain statement is described by two relations that say nothing about walks: the names it opens a
handle under, and the names it releases. What it does to the held names is just that. A walk then
holds and flushes nothing but what was held before and what is opened on the way. Branches that are
skipped, blocks and conditionals in each other, and flushes in the midst of it only ever leave names
out. As each body is walked from nothing held, no name comes from another body.

## Main definitions

* `Script.Opens`, `Script.Releases`: the names that a plain statement opens a handle under, and those
  that it closes or hands on
* `Script.OpenedIn`: the names under which a statement that is walked in a body opens a handle
* `Walk.Within`: all that a walk holds and flushes has a property
* `Script.bodies`: the bodies that are walked, those of the functions and the top level

## Main results

* `Script.Grounded.statement_induction`: statements by the statements in them
* `Script.mem_held_effect`: what is held after a plain statement
* `Script.within_walk`, `Script.within_sequence`: a walk stays within what is held and opened
* `Script.flushes_audit`, `Script.mem_held_audit`: an audit by the walks of the bodies
* `Script.warnings_list_only_opened_names`: no name is invented
-/

namespace ScriptLint

theorem NameSet.mem_foldl_union {sets : List NameSet} {first : NameSet} {name : String} :
    name ∈ sets.foldl (· ∪ ·) first ↔ name ∈ first ∨ ∃ names ∈ sets, name ∈ names := by
  induction sets generalizing first with
  | nil => simp
  | cons names rest ih => simp [ih, or_assoc]

/-- An optional statement is walked as the list of it. -/
theorem Walk.optional_eq_sequence (walk : Nat → NameSet → Walk) (part : Option Nat)
    (held : NameSet) : Walk.optional walk part held = Walk.sequence walk part.toList held := by
  cases part with
  | none => rfl
  | some t => simp [Walk.optional, Walk.sequence, Walk.andThen, Walk.still]

namespace Script

/-! ## Opening and releasing -/

section Definitions

variable (script : Script)

/-- A variable of a name, indexed or not. -/
def IsVariable (part : Option Nat) (name : String) : Prop :=
  ∃ indexes, part.bind (script.nodes[·]?) = some (.lvalue name indexes)

/-- An assignment of an opening call to a variable or an identifier of a name. A handle that is
assigned to anything else has no name. -/
structure AssignsHandle (target value : Option Nat) (name : String) : Prop where
  value_opens : ∃ callee args,
    value.bind (script.nodes[·]?) = some (.call callee args) ∧ callee ∈ openers
  target_named : script.IsVariable target name ∨
    target.bind (script.nodes[·]?) = some (.identifier name) ∨
    name = unassigned ∧ (∀ other, ¬ script.IsVariable target other) ∧
      ∀ other, target.bind (script.nodes[·]?) ≠ some (.identifier other)

/-- A statement that opens a handle under a name: an assignment, a declaration of which an entry is
such an assignment, or a bare opening call, whose handle has no name. -/
def Opens (r : Nat) (name : String) : Prop :=
  match script.nodes[r]? with
  | some (.assignment target value) => script.AssignsHandle target value name
  | some (.locals entries) => ∃ entry ∈ entries, ∃ target value,
      script.nodes[entry]? = some (.assignment target value) ∧
        script.AssignsHandle target value name
  | some (.call callee _) => callee ∈ openers ∧ name = unassigned
  | _ => False

/-- A statement that closes the variable of a name, or returns it. -/
def Releases (r : Nat) (name : String) : Prop :=
  match script.nodes[r]? with
  | some (.returns value) => script.IsVariable value name
  | some (.call callee args) =>
      callee ∈ closers ∧ script.IsVariable (args.head?.bind (·.value)) name
  | _ => False

/-- A name under which some statement that is walked in a body opens a handle. -/
def OpenedIn (body : List Nat) (name : String) : Prop :=
  ∃ r, script.Walked body r ∧ script.Opens r name

end Definitions

variable {script : Script}

theorem lvalueName?_eq_some_iff {part : Option Nat} {name : String} :
    script.lvalueName? part = some name ↔ script.IsVariable part name := by
  unfold lvalueName? IsVariable
  cases part.bind (script.nodes[·]?) with
  | none => simp
  | some node => cases node <;> simp

theorem targetName_eq_iff {target : Option Nat} {name : String} :
    script.targetName target = name ↔ script.IsVariable target name ∨
      target.bind (script.nodes[·]?) = some (.identifier name) ∨
      name = unassigned ∧ (∀ other, ¬ script.IsVariable target other) ∧
        ∀ other, target.bind (script.nodes[·]?) ≠ some (.identifier other) := by
  unfold targetName IsVariable
  cases target.bind (script.nodes[·]?) with
  | none => simp [eq_comm]
  | some node => cases node <;> simp [eq_comm]

theorem openedName?_eq_some_iff {target value : Option Nat} {name : String} :
    script.openedName? target value = some name ↔
      script.AssignsHandle target value name ∧ name ∉ sharedVariables := by
  constructor
  · intro h
    unfold openedName? at h
    split at h
    · next callee args hvalue =>
      split at h
      · next hopens =>
        obtain rfl := Option.some.inj h
        exact ⟨⟨⟨callee, args, hvalue, hopens.1⟩, targetName_eq_iff.mp rfl⟩, hopens.2⟩
      · cases h
    · cases h
  · rintro ⟨⟨⟨callee, args, hvalue, hopens⟩, htarget⟩, hshared⟩
    obtain rfl := targetName_eq_iff.mpr htarget
    simp only [openedName?, hvalue, hopens, hshared, not_false_eq_true, and_self, if_true]

/-! ## Plain statements -/

theorem mem_assign {target value : Option Nat} {held : NameSet} {name : String} :
    name ∈ script.assign target value held ↔
      script.AssignsHandle target value name ∧ name ∉ sharedVariables ∨ name ∈ held := by
  rw [← openedName?_eq_some_iff, assign]
  cases script.openedName? target value with
  | none => simp
  | some opened => simp [eq_comm]

theorem mem_foldl_declare {entries : List Nat} {held : NameSet} {name : String} :
    name ∈ entries.foldl script.declare held ↔
      (∃ entry ∈ entries, ∃ target value,
        script.nodes[entry]? = some (.assignment target value) ∧
          script.AssignsHandle target value name) ∧ name ∉ sharedVariables ∨ name ∈ held := by
  induction entries generalizing held with
  | nil => simp
  | cons entry rest ih =>
    have hentry : name ∈ script.declare held entry ↔ (∃ target value,
        script.nodes[entry]? = some (.assignment target value) ∧
          script.AssignsHandle target value name) ∧ name ∉ sharedVariables ∨ name ∈ held := by
      unfold declare
      split
      · next target value hnode => simp [mem_assign, hnode]
      · next hnode =>
        refine ⟨Or.inr, ?_⟩
        rintro (⟨⟨target, value, hentry, -⟩, -⟩ | hheld)
        · exact (hnode target value hentry).elim
        · exact hheld
    rw [List.foldl_cons, ih, hentry, List.exists_mem_cons_iff, or_and_right, or_left_comm, or_assoc]

theorem mem_release {part : Option Nat} {held : NameSet} {name : String} :
    name ∈ script.release part held ↔ name ∈ held ∧ ¬ script.IsVariable part name := by
  rw [← lvalueName?_eq_some_iff, release]
  cases script.lvalueName? part with
  | none => simp
  | some closed => simp [eq_comm]

/-- The functions that matter are told apart: what opens handles neither ends the script nor
closes, and what closes does not end the script. -/
theorem openers_disjoint :
    (∀ callee ∈ openers, callee ∉ exits ∧ callee ∉ closers) ∧ ∀ callee ∈ closers, callee ∉ exits := by
  decide

theorem mem_held_callEffect {callee : String} {args : List (Argument Nat)} {held : NameSet}
    {name : String} :
    name ∈ (script.callEffect callee args held).held ↔
      (callee ∈ openers ∧ name = unassigned) ∨
        name ∈ held ∧ ¬ (callee ∈ closers ∧ script.IsVariable (args.head?.bind (·.value)) name) := by
  obtain ⟨hopeners, hclosers⟩ := openers_disjoint
  by_cases hexits : callee ∈ exits
  · have hopens : callee ∉ openers := fun h => (hopeners callee h).1 hexits
    have hcloses : callee ∉ closers := fun h => hclosers callee h hexits
    simp [callEffect, hexits, hopens, hcloses, Walk.flush]
  by_cases hopens : callee ∈ openers
  · simp [callEffect, hexits, hopens, (hopeners callee hopens).2, Walk.still]
  by_cases hcloses : callee ∈ closers
  · simp [callEffect, hexits, hopens, hcloses, Walk.still, mem_release]
  -- what is left at most takes a note
  by_cases hmanages : callee ∈ managers
  · simp [callEffect, hexits, hopens, hcloses, hmanages]
  · simp [callEffect, hexits, hopens, hcloses, hmanages, Walk.still]

/-- **What is held after a plain statement**: the names it opens a handle under, unless they are
shared variables, and what was held and is not released. -/
theorem mem_held_effect {r : Nat} {node : Node Nat} (hnode : script.nodes[r]? = some node)
    {held : NameSet} {name : String} :
    name ∈ (script.effect node held).held ↔
      (script.Opens r name ∧ name ∉ sharedVariables) ∨ name ∈ held ∧ ¬ script.Releases r name := by
  simp only [Opens, Releases, hnode]
  cases node with
  | assignment target value => simp [effect, Walk.still, mem_assign]
  | locals entries => simp [effect, Walk.still, mem_foldl_declare]
  | returns value => simp [effect, Walk.still, mem_release]
  | call callee args =>
    -- a bare opening call opens under no name, which no shared variable has
    have hunassigned : unassigned ∉ sharedVariables := by decide
    rw [effect, mem_held_callEffect]
    refine or_congr_left ⟨?_, And.left⟩
    rintro ⟨hopens, rfl⟩
    exact ⟨⟨hopens, rfl⟩, hunassigned⟩
  | _ => simp [effect, Walk.still, Walk.flush]

/-- A plain statement flushes what is held, if anything. -/
theorem eq_of_mem_flushes_effect {node : Node Nat} {held names : NameSet}
    (h : names ∈ (script.effect node held).flushes) : names = held := by
  cases node with
  | breaks => exact List.mem_singleton.mp h
  | continues => exact List.mem_singleton.mp h
  | call callee args =>
    simp only [effect, callEffect] at h
    split at h
    · exact List.mem_singleton.mp h
    split at h
    · cases h
    split at h
    · cases h
    split at h
    · cases h
    · cases h
  | _ => cases h

/-! ## Statements by the statements in them -/

/-- **Statements by the statements in them**: what holds of plain statements, of conditionals if it
holds of their branches, and of blocks if it holds of their bodies, holds of all statements of a
grounded script. -/
theorem Grounded.statement_induction (hgrounded : script.Grounded) {motive : Nat → Prop}
    (plain : ∀ r, script.alternatives r = [] → motive r)
    (branch : ∀ r cond yes no, script.nodes[r]? = some (.branch cond yes no) →
      (∀ t ∈ yes.toList, motive t) → (∀ t ∈ no.toList, motive t) → motive r)
    (block : ∀ r body, script.nodes[r]? = some (.block body) → (∀ t ∈ body, motive t) → motive r)
    (r : Nat) : motive r := by
  induction r using Nat.strongRecOn with
  | ind r ih =>
    cases hnode : script.nodes[r]? with
    | none => exact plain r (by simp [alternatives, hnode])
    | some node =>
      have hpart : ∀ t ∈ node.refs, motive t := fun t ht => ih t (hgrounded.refs_lt hnode t ht)
      cases node with
      | branch cond yes no =>
        refine branch r cond yes no hnode (fun t ht => hpart t ?_) (fun t ht => hpart t ?_)
        · exact List.mem_append_left _ (List.mem_append_right _ ht)
        · exact List.mem_append_right _ ht
      | block body => exact block r body hnode hpart
      | _ => exact plain r (by simp [alternatives, hnode])

theorem walk_of_branch (hgrounded : script.Grounded) {r : Nat} {cond yes no : Option Nat}
    (hnode : script.nodes[r]? = some (.branch cond yes no)) (held : NameSet) :
    (∃ name, script.testedName? cond = some name ∧ name ∈ held ∧
      script.walk r held = { held, notes := [.guarded name] }) ∨
    script.walk r held = (Walk.sequence script.walk yes.toList held).merge
      (Walk.sequence script.walk no.toList held) := by
  rw [walk_eq hgrounded hnode, walkNode, Walk.optional_eq_sequence, Walk.optional_eq_sequence]
  cases hguard : script.guard? cond held with
  | none => exact Or.inr rfl
  | some name =>
    rw [guard?_eq, Option.filter_eq_some_iff, decide_eq_true_eq] at hguard
    exact Or.inl ⟨name, hguard.1, hguard.2, rfl⟩

theorem walk_of_block (hgrounded : script.Grounded) {r : Nat} {body : List Nat}
    (hnode : script.nodes[r]? = some (.block body)) (held : NameSet) :
    script.walk r held = Walk.sequence script.walk body held := by
  rw [walk_eq hgrounded hnode]
  rfl

/-- The walk of a plain statement is its effect. Where there is no node, nothing is opened or
released. -/
theorem walk_of_plain (hgrounded : script.Grounded) {r : Nat} (hplain : script.alternatives r = [])
    (held : NameSet) :
    (∀ name, name ∈ (script.walk r held).held ↔
      (script.Opens r name ∧ name ∉ sharedVariables) ∨ name ∈ held ∧ ¬ script.Releases r name) ∧
    ∀ names ∈ (script.walk r held).flushes, names = held := by
  cases hnode : script.nodes[r]? with
  | none =>
    have hwalk : script.walk r held = .still held := by rw [walk, hnode]
    rw [hwalk]
    simp [Opens, Releases, hnode, Walk.still]
  | some node =>
    have hwalk : script.walk r held = script.effect node held := by
      rw [walk_eq hgrounded hnode]
      cases node with
      | branch cond yes no => simp [alternatives, hnode] at hplain
      | block body => simp [alternatives, hnode] at hplain
      | _ => rfl
    rw [hwalk]
    exact ⟨fun name => mem_held_effect hnode, fun names => eq_of_mem_flushes_effect⟩

end Script

/-! ## Staying within -/

/-- All names that a walk holds in the end or flushes on the way have a property. -/
structure Walk.Within (walk : Walk) (may : String → Prop) : Prop where
  held : ∀ name ∈ walk.held, may name
  flushes : ∀ names ∈ walk.flushes, ∀ name ∈ names, may name

namespace Walk.Within

variable {may : String → Prop} {first second : Walk} {next : NameSet → Walk} {held : NameSet}

theorem still (h : ∀ name ∈ held, may name) : (Walk.still held).Within may where
  held := h
  flushes := by simp [Walk.still]

theorem andThen (h : first.Within may) (h' : (next first.held).Within may) :
    (first.andThen next).Within may where
  held := h'.held
  flushes := by
    intro names hnames
    rcases List.mem_append.mp hnames with hnames | hnames
    · exact h.flushes names hnames
    · exact h'.flushes names hnames

theorem merge (h : first.Within may) (h' : second.Within may) :
    (first.merge second).Within may where
  held := by
    intro name hname
    rcases NameSet.mem_union.mp hname with hname | hname
    · exact h.held name hname
    · exact h'.held name hname
  flushes := by
    intro names hnames
    rcases List.mem_append.mp hnames with hnames | hnames
    · exact h.flushes names hnames
    · exact h'.flushes names hnames

end Walk.Within

namespace Script

variable {script : Script} {may : String → Prop} {held : NameSet}

theorem OpenedIn.of_forall {body inner : List Nat} {name : String}
    (h : script.OpenedIn inner name) (hinner : ∀ t ∈ inner, script.Walked body t) :
    script.OpenedIn body name := by
  obtain ⟨r, hwalked, hopens⟩ := h
  exact ⟨r, hwalked.of_forall hinner, hopens⟩

theorem Walked.singleton {body : List Nat} {r : Nat} (h : script.Walked body r) :
    ∀ s ∈ [r], script.Walked body s := by
  intro s hs
  obtain rfl := List.mem_singleton.mp hs
  exact h

theorem Walked.of_alternative {r t : Nat} {part : List Nat} (hpart : part ∈ script.alternatives r)
    (ht : t ∈ part) : ∀ s ∈ [t], script.Walked [r] s :=
  (Walked.inner (.member (by simp)) hpart ht).singleton

theorem within_sequence_of_forall {body : List Nat}
    (h : ∀ t ∈ body, ∀ held : NameSet, (∀ name ∈ held, may name) → (script.walk t held).Within may)
    (hheld : ∀ name ∈ held, may name) : (Walk.sequence script.walk body held).Within may := by
  induction body generalizing held with
  | nil => exact .still hheld
  | cons r rest ih =>
    have hfirst := h r List.mem_cons_self held hheld
    exact hfirst.andThen (ih (fun t ht => h t (List.mem_cons_of_mem _ ht)) hfirst.held)

/-- **A walk stays within** what is held before it, and the names under which statements that are
walked open handles. -/
theorem within_walk (hgrounded : script.Grounded) (r : Nat)
    (hopened : ∀ name, script.OpenedIn [r] name → name ∉ sharedVariables → may name)
    {held : NameSet} (hheld : ∀ name ∈ held, may name) : (script.walk r held).Within may := by
  induction r using hgrounded.statement_induction generalizing held with
  | plain r hplain =>
    obtain ⟨hmem, hflushes⟩ := walk_of_plain hgrounded hplain held
    constructor
    · intro name hname
      rcases (hmem name).mp hname with ⟨hopens, hshared⟩ | ⟨hname, -⟩
      · exact hopened name ⟨r, .member (by simp), hopens⟩ hshared
      · exact hheld name hname
    · intro names hnames
      rw [hflushes names hnames]
      exact hheld
  | branch r cond yes no hnode ihyes ihno =>
    -- a skipped conditional holds what was held and flushes nothing
    rcases walk_of_branch hgrounded hnode held with ⟨name, -, -, hwalk⟩ | hwalk
    · rw [hwalk]
      exact ⟨hheld, by simp⟩
    · have hyes : yes.toList ∈ script.alternatives r := by simp [alternatives, hnode]
      have hno : no.toList ∈ script.alternatives r := by simp [alternatives, hnode]
      rw [hwalk]
      refine .merge (within_sequence_of_forall (fun t ht held => ihyes t ht ?_) hheld)
        (within_sequence_of_forall (fun t ht held => ihno t ht ?_) hheld)
      · exact fun name h => hopened name (h.of_forall (Walked.of_alternative hyes ht))
      · exact fun name h => hopened name (h.of_forall (Walked.of_alternative hno ht))
  | block r body hnode ih =>
    have hbody : body ∈ script.alternatives r := by simp [alternatives, hnode]
    rw [walk_of_block hgrounded hnode]
    refine within_sequence_of_forall (fun t ht held => ih t ht ?_) hheld
    exact fun name h => hopened name (h.of_forall (Walked.of_alternative hbody ht))

theorem within_sequence (hgrounded : script.Grounded) {body : List Nat}
    (hopened : ∀ name, script.OpenedIn body name → name ∉ sharedVariables → may name)
    (hheld : ∀ name ∈ held, may name) : (Walk.sequence script.walk body held).Within may := by
  refine within_sequence_of_forall (fun t ht held => within_walk hgrounded t ?_) hheld
  exact fun name h => hopened name (h.of_forall (Walked.member ht).singleton)

/-! ## Audits by bodies -/

/-- The bodies that are walked, each as a list of statements: those of the functions in table order,
and the top level. -/
def bodies (script : Script) : List (List Nat) :=
  script.functions.map (·.2.toList) ++ [script.top]

/-- The walks of an audit hold and flush what the walks of the bodies do. -/
theorem map_walks {β : Type} (read : Walk → β)
    (hread : ∀ walk other : Walk, walk.held = other.held → walk.flushes = other.flushes →
      read walk = read other) :
    script.walks.map read =
      script.bodies.map fun body => read (Walk.sequence script.walk body ∅) := by
  have hfunction : ∀ function : String × Option Nat,
      read (script.functionWalk function.1 function.2) =
        read (Walk.sequence script.walk function.2.toList ∅) := by
    rintro ⟨name, body⟩
    -- the walk of a function differs in a note at most
    rw [← Walk.optional_eq_sequence]
    unfold functionWalk
    dsimp only
    split
    · rfl
    · exact hread _ _ rfl rfl
  simp only [walks, bodies, List.map_append, List.map_map, List.map_cons, List.map_nil]
  congr 1
  exact List.map_congr_left fun function _ => hfunction function

/-- What an audit flushes is what the walks of the bodies flush, one after the other. -/
theorem flushes_audit :
    script.audit.flushes =
      script.bodies.flatMap fun body => (Walk.sequence script.walk body ∅).flushes := by
  rw [audit, Walk.flushes_foldl_merge, List.flatMap_def,
    map_walks (·.flushes) fun _ _ _ h => h, ← List.flatMap_def]
  rfl

/-- What an audit holds is what the walk of some body holds. -/
theorem mem_held_audit {name : String} :
    name ∈ script.audit.held ↔
      ∃ body ∈ script.bodies, name ∈ (Walk.sequence script.walk body ∅).held := by
  rw [audit, Walk.held_foldl_merge, map_walks (·.held) fun _ _ h _ => h, NameSet.mem_foldl_union]
  simp [Walk.still]

/-- **No name is invented.** In every script that is put together, the walk of a statement, from
whatever is held, holds and flushes only what was held before, or names under which a statement that
is walked opens a handle. The lines that an audit adds to a report warn of what the walks of the
bodies flush, body after body, and at last of what they hold in the end, where these sets have names
at all. Every name that is flushed is one under which a statement of the same body opens a handle,
and every name that is held in the end is one under which a statement of some body does; and none of
them is a shared variable. -/
theorem warnings_list_only_opened_names {steps : List Step} {top : List Nat} {script : Script}
    (h : Script.build steps top = .ok script) :
    (∀ r held, (script.walk r held).Within fun name =>
      name ∈ held ∨ script.OpenedIn [r] name) ∧
    (∀ (file : String) (report : Report) (facts : Facts),
      ((auditFile ⟨file, script⟩).run report facts).report.lines = report.lines ++
        (((script.bodies.flatMap fun body => (Walk.sequence script.walk body ∅).flushes) ++
          [script.audit.held]).filter (!·.isEmpty)).map leakLine) ∧
    (∀ body ∈ script.bodies, ∀ names ∈ (Walk.sequence script.walk body ∅).flushes,
      ∀ name ∈ names, script.OpenedIn body name ∧ name ∉ sharedVariables) ∧
    ∀ name ∈ script.audit.held,
      (∃ body ∈ script.bodies, script.OpenedIn body name) ∧ name ∉ sharedVariables := by
  have hgrounded := grounded_of_build h
  have hbody : ∀ body : List Nat, (Walk.sequence script.walk body ∅).Within fun name =>
      script.OpenedIn body name ∧ name ∉ sharedVariables :=
    fun body => within_sequence hgrounded (fun name hopened hshared => ⟨hopened, hshared⟩) (by simp)
  refine ⟨fun r held => ?_, fun file report facts => ?_, fun body _ => (hbody body).flushes, ?_⟩
  · exact within_walk hgrounded r (fun name hopened _ => Or.inr hopened) fun name => Or.inl
  · rw [lines_auditFile, findings, flushes_audit]
  · intro name hname
    obtain ⟨body, hmem, hheld⟩ := mem_held_audit.mp hname
    obtain ⟨hopened, hshared⟩ := (hbody body).held name hheld
    exact ⟨⟨body, hmem, hopened⟩, hshared⟩

/-- A function opens a handle and ends the script, and the top level opens two more, one of them in a
shared variable. -/
def endingSteps : List Step :=
  [.call "open_sock_tcp" [], .assign "s" 0, .call "exit" [], .function "f" [] [1, 2],
    .assign "g_sock" 0, .assign "t" 0]

/-- The script of these steps. -/
def endingScript : Script where
  nodes := #[.call "open_sock_tcp" [], .lvalue "s" [], .assignment (some 1) (some 0),
    .call "exit" [], .block [2, 3], .function "f" [] (some 4), .lvalue "g_sock" [],
    .assignment (some 6) (some 0), .lvalue "t" [], .assignment (some 8) (some 0)]
  top := [7, 9]

theorem endingScript_warnings :
    Script.build endingSteps [4, 5] = .ok endingScript ∧
      endingScript.bodies = [[4], [7, 9]] ∧
      (Walk.sequence endingScript.walk [4] ∅).flushes = [(∅ : NameSet).insert "s"] ∧
      endingScript.OpenedIn [4] "s" ∧
      endingScript.audit.held.toList = ["s", "t"] ∧
      (∃ body ∈ endingScript.bodies, endingScript.OpenedIn body "t") ∧
      "g_sock" ∉ endingScript.audit.held := by
  have hbuild : Script.build endingSteps [4, 5] = .ok endingScript := by rfl
  obtain ⟨-, -, hflushes, hheld⟩ := warnings_list_only_opened_names hbuild
  have hbodies : endingScript.bodies = [[4], [7, 9]] := by rfl
  have hflushed : (Walk.sequence endingScript.walk [4] ∅).flushes = [(∅ : NameSet).insert "s"] := by
    decide +kernel
  have hends : endingScript.audit.held.toList = ["s", "t"] := by decide +kernel
  refine ⟨hbuild, hbodies, hflushed, ?_, hends, ?_, ?_⟩
  · have hmem : (∅ : NameSet).insert "s" ∈ (Walk.sequence endingScript.walk [4] ∅).flushes := by
      rw [hflushed]
      exact List.mem_singleton_self _
    exact (hflushes [4] (by simp [hbodies]) _ hmem "s" (by simp)).1
  · exact (hheld "t" (by simp [NameSet.mem_def, hends])).1
  · intro h
    exact (hheld "g_sock" h).2 (by decide)

end Script

end ScriptLint
