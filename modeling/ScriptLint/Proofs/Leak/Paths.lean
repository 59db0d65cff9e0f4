import ScriptLint.Leak.Walk
import ScriptLint.Proofs.Script.Grounded

/-!
# The walk follows every path

A walk enters both branches of a conditional and goes on once, from all that either of them holds.
Here this is compared with the paths through the statements. A path takes one branch wherever it
meets a conditional, and only the plain statements on it are executed, one after the other. Where no
conditional tests the failure of a variable, what a walk holds in the end is what is held at the end
of some path: to merge the branches loses nothing and adds nothing.

There are exponentially many paths, and the walk is one. The two agree because each plain statement
adds some names and drops some names whatever is held. Such changes distribute over unions, so what
follows a conditional may be applied to each branch or to what the branches hold together. A test
such as `!x` is no such change: whether the branches are entered depends on what is held.

## Main definitions

* `Uniform`: a change that adds and drops the same names whatever is held
* `Script.alternatives`: the lists of statements of which a compound statement executes one
* `Script.Way`: a path through a list of statements, by the plain statements on it
* `Script.follow`: what is held after the statements of a path
* `Script.Walked`: the statements that a walk comes to
* `Script.Unguarded`: no conditional that a walk comes to tests the failure of a variable

## Main results

* `Uniform.mem_iff_exists`: uniform changes distribute over unions
* `Script.uniform_effect`: every plain statement is a uniform change
* `Script.PathExact.append`, `Script.PathExact.branch`: paths one after the other, and side by side
* `Script.pathExact_walk`: the walk of a statement holds what some path holds
* `Script.walk_holds_what_some_path_holds`: the same of a list of statements, and what follows
-/

namespace ScriptLint

namespace NameSet

/-- The members that are kept by a test. -/
def filter (s : NameSet) (keep : String → Bool) : NameSet :=
  ⟨s.toList.filter keep, s.increasing.filter keep⟩

@[simp]
theorem mem_filter {s : NameSet} {keep : String → Bool} {name : String} :
    name ∈ s.filter keep ↔ name ∈ s ∧ keep name = true :=
  List.mem_filter

end NameSet

/-! ## Uniform changes -/

/-- A change of what is held that adds and drops the same names, whatever is held. -/
def Uniform (change : NameSet → NameSet) : Prop :=
  ∃ adds drops : NameSet, ∀ held name,
    name ∈ change held ↔ name ∈ adds ∨ name ∈ held ∧ name ∉ drops

namespace Uniform

variable {change other : NameSet → NameSet}

theorem refl : Uniform fun held => held :=
  ⟨∅, ∅, by simp⟩

theorem insert (name : String) : Uniform (·.insert name) :=
  ⟨(∅ : NameSet).insert name, ∅, by simp⟩

theorem erase (name : String) : Uniform (·.erase name) :=
  ⟨∅, (∅ : NameSet).insert name, by simp⟩

/-- One uniform change after the other is uniform: what the first adds is kept unless the second
drops it. -/
theorem andThen (h : Uniform change) (h' : Uniform other) :
    Uniform fun held => other (change held) := by
  obtain ⟨adds, drops, hchange⟩ := h
  obtain ⟨adds', drops', hother⟩ := h'
  refine ⟨adds' ∪ adds.filter (· ∉ drops'), drops ∪ drops', fun held name => ?_⟩
  simp only [hother, hchange, NameSet.mem_union, NameSet.mem_filter, decide_eq_true_eq,
    or_and_right, and_assoc, or_assoc, not_or]

/-- Two uniform changes side by side are uniform: what is dropped is what both drop. -/
theorem merge (h : Uniform change) (h' : Uniform other) :
    Uniform fun held => change held ∪ other held := by
  obtain ⟨adds, drops, hchange⟩ := h
  obtain ⟨adds', drops', hother⟩ := h'
  refine ⟨adds ∪ adds', drops.filter (· ∈ drops'), fun held name => ?_⟩
  simp only [hother, hchange, NameSet.mem_union, NameSet.mem_filter, decide_eq_true_eq]
  rw [or_or_or_comm, ← and_or_left, ← Classical.not_and_iff_not_or_not]

/-- **Uniform changes distribute over unions**: if what is held comes from some of the members of a
family, so does what is held after the change. The family has a member, since what the change adds
has to come from somewhere. -/
theorem mem_iff_exists (h : Uniform change) {ι : Type} {member : ι → Prop} {part : ι → NameSet}
    {whole : NameSet} (hne : ∃ i, member i)
    (hwhole : ∀ name, name ∈ whole ↔ ∃ i, member i ∧ name ∈ part i) (name : String) :
    name ∈ change whole ↔ ∃ i, member i ∧ name ∈ change (part i) := by
  obtain ⟨adds, drops, hchange⟩ := h
  simp only [hchange, hwhole]
  constructor
  · rintro (hadds | ⟨⟨i, hi, hname⟩, hkept⟩)
    · obtain ⟨i, hi⟩ := hne
      exact ⟨i, hi, Or.inl hadds⟩
    · exact ⟨i, hi, Or.inr ⟨hname, hkept⟩⟩
  · rintro ⟨i, hi, hadds | ⟨hname, hkept⟩⟩
    · exact Or.inl hadds
    · exact Or.inr ⟨⟨i, hi, hname⟩, hkept⟩

theorem mono (h : Uniform change) {held more : NameSet} (hsub : ∀ name ∈ held, name ∈ more) :
    ∀ name ∈ change held, name ∈ change more := by
  obtain ⟨adds, drops, hchange⟩ := h
  intro name hname
  rw [hchange] at hname ⊢
  rcases hname with hadds | ⟨hheld, hkept⟩
  · exact Or.inl hadds
  · exact Or.inr ⟨hsub name hheld, hkept⟩

theorem map_union (h : Uniform change) (held more : NameSet) :
    change (held ∪ more) = change held ∪ change more := by
  obtain ⟨adds, drops, hchange⟩ := h
  ext name
  simp only [hchange, NameSet.mem_union]
  rw [or_or_or_comm, or_self, ← or_and_right]

end Uniform

namespace Script

/-! ## Plain statements -/

section Plain

variable (script : Script)

theorem uniform_assign (target value : Option Nat) : Uniform (script.assign target value) := by
  unfold assign
  cases script.openedName? target value with
  | none => exact .refl
  | some name => exact .insert name

theorem uniform_foldl_declare (entries : List Nat) :
    Uniform fun held => entries.foldl script.declare held := by
  induction entries with
  | nil => exact .refl
  | cons entry rest ih =>
    have hentry : Uniform fun held => script.declare held entry := by
      unfold declare
      cases script.nodes[entry]? with
      | none => exact .refl
      | some node =>
        cases node with
        | assignment target value => exact script.uniform_assign target value
        | _ => exact .refl
    exact hentry.andThen ih

theorem uniform_release (part : Option Nat) : Uniform (script.release part) := by
  unfold release
  cases script.lvalueName? part with
  | none => exact .refl
  | some name => exact .erase name

theorem uniform_callEffect (callee : String) (args : List (Argument Nat)) :
    Uniform fun held => (script.callEffect callee args held).held := by
  by_cases hexits : callee ∈ exits
  · simp only [callEffect, if_pos hexits]
    exact .refl
  by_cases hopens : callee ∈ openers
  · simp only [callEffect, if_neg hexits, if_pos hopens]
    exact .insert unassigned
  by_cases hcloses : callee ∈ closers
  · simp only [callEffect, if_neg hexits, if_neg hopens, if_pos hcloses]
    exact script.uniform_release (args.head?.bind (·.value))
  -- what is left at most takes a note
  by_cases hmanages : callee ∈ managers
  · simp only [callEffect, if_neg hexits, if_neg hopens, if_neg hcloses, if_pos hmanages]
    exact .refl
  · simp only [callEffect, if_neg hexits, if_neg hopens, if_neg hcloses, if_neg hmanages]
    exact .refl

/-- **Every plain statement is a uniform change**: none of them looks at what is held. -/
theorem uniform_effect (node : Node Nat) : Uniform fun held => (script.effect node held).held := by
  cases node with
  | assignment target value => exact script.uniform_assign target value
  | locals entries => exact script.uniform_foldl_declare entries
  | returns value => exact script.uniform_release value
  | call callee args => exact script.uniform_callEffect callee args
  | _ => exact .refl

end Plain

/-! ## Paths -/

/-- What is held after the plain statement at a position. -/
def execute (script : Script) (held : NameSet) (r : Nat) : NameSet :=
  match script.nodes[r]? with
  | some node => (script.effect node held).held
  | none => held

/-- What is held after the statements of a path, executed one after the other. -/
def follow (script : Script) (way : List Nat) (held : NameSet) : NameSet :=
  way.foldl script.execute held

/-- The lists of statements of which a compound statement executes one: the branches of a
conditional, where an absent branch is empty, and the body of a block. A plain statement has none. -/
def alternatives (script : Script) (r : Nat) : List (List Nat) :=
  match script.nodes[r]? with
  | some (.branch _ yes no) => [yes.toList, no.toList]
  | some (.block body) => [body]
  | _ => []

/-- A path through a list of statements, by the plain statements on it. At each visit of a compound
statement, one of its alternatives is chosen. -/
inductive Way (script : Script) : List Nat → List Nat → Prop
  | nil : Way script [] []
  | plain {r : Nat} {rest way : List Nat} (hplain : script.alternatives r = [])
      (hrest : Way script rest way) : Way script (r :: rest) (r :: way)
  | choose {r : Nat} {part rest way : List Nat} (hpart : part ∈ script.alternatives r)
      (hrest : Way script (part ++ rest) way) : Way script (r :: rest) way

/-- The statements that a walk of a list comes to, if no conditional is skipped: those of the list,
and with a compound statement the statements of its alternatives. -/
inductive Walked (script : Script) (body : List Nat) : Nat → Prop
  | member {r : Nat} (hmem : r ∈ body) : Walked script body r
  | inner {r t : Nat} {part : List Nat} (houter : Walked script body r)
      (hpart : part ∈ script.alternatives r) (hmem : t ∈ part) : Walked script body t

/-- The variable that a condition of the form `!x` tests, be it held or not. -/
def testedName? (script : Script) (cond : Option Nat) : Option String :=
  match cond.bind (script.nodes[·]?) with
  | some (.expression .not _ rhs) => script.lvalueName? rhs
  | _ => none

/-- No conditional that a walk of a list comes to has a condition of the form `!x`. -/
def Unguarded (script : Script) (body : List Nat) : Prop :=
  ∀ r, script.Walked body r → ∀ cond yes no,
    script.nodes[r]? = some (.branch cond yes no) → script.testedName? cond = none

variable {script : Script}

theorem follow_append (way more : List Nat) (held : NameSet) :
    script.follow (way ++ more) held = script.follow more (script.follow way held) :=
  List.foldl_append

theorem uniform_execute (r : Nat) : Uniform fun held => script.execute held r := by
  unfold execute
  cases script.nodes[r]? with
  | none => exact .refl
  | some node => exact script.uniform_effect node

theorem Walked.of_forall {body inner : List Nat} {r : Nat} (h : script.Walked inner r)
    (hinner : ∀ t ∈ inner, script.Walked body t) : script.Walked body r := by
  induction h with
  | member hmem => exact hinner _ hmem
  | inner _ hpart hmem ih => exact .inner ih hpart hmem

theorem Unguarded.of_forall {body inner : List Nat} (h : script.Unguarded body)
    (hinner : ∀ t ∈ inner, script.Walked body t) : script.Unguarded inner :=
  fun r hr => h r (hr.of_forall hinner)

namespace Way

variable {body more way way' : List Nat}

theorem append (h : script.Way body way) (h' : script.Way more way') :
    script.Way (body ++ more) (way ++ way') := by
  induction h with
  | nil => exact h'
  | plain hplain _ ih => exact .plain hplain ih
  | choose hpart _ ih =>
    rw [List.append_assoc] at ih
    exact .choose hpart ih

/-- A path through two lists is a path through the first and a path through the second. -/
theorem exists_append (h : script.Way (body ++ more) way) :
    ∃ first second, way = first ++ second ∧ script.Way body first ∧ script.Way more second := by
  generalize hlist : body ++ more = statements at h
  induction h generalizing body with
  | nil =>
    obtain ⟨rfl, rfl⟩ := List.append_eq_nil_iff.mp hlist
    exact ⟨[], [], rfl, .nil, .nil⟩
  | @plain r rest way hplain hrest ih =>
    cases body with
    | nil =>
      subst hlist
      exact ⟨[], _, rfl, .nil, .plain hplain hrest⟩
    | cons first body =>
      obtain ⟨rfl, rfl⟩ := List.cons.inj hlist
      obtain ⟨way, way', rfl, hway, hway'⟩ := ih rfl
      exact ⟨first :: way, way', rfl, .plain hplain hway, hway'⟩
  | @choose r part rest way hpart hrest ih =>
    cases body with
    | nil =>
      subst hlist
      exact ⟨[], _, rfl, .nil, .choose hpart hrest⟩
    | cons first body =>
      -- the alternative takes the place of the statement, still before the second list
      obtain ⟨rfl, rfl⟩ := List.cons.inj hlist
      obtain ⟨way, way', rfl, hway, hway'⟩ := ih (List.append_assoc _ _ _)
      exact ⟨way, way', rfl, .choose hpart hway, hway'⟩

theorem singleton_iff_of_plain {r : Nat} (hplain : script.alternatives r = []) :
    script.Way [r] way ↔ way = [r] := by
  constructor
  · intro h
    cases h with
    | plain _ hrest =>
      cases hrest
      rfl
    | choose hpart _ => simp [hplain] at hpart
  · rintro rfl
    exact .plain hplain .nil

theorem singleton_iff_of_compound {r : Nat} (hcompound : script.alternatives r ≠ []) :
    script.Way [r] way ↔ ∃ part ∈ script.alternatives r, script.Way part way := by
  constructor
  · intro h
    cases h with
    | plain hplain _ => exact absurd hplain hcompound
    | @choose _ part _ _ hpart hrest =>
      rw [List.append_nil] at hrest
      exact ⟨part, hpart, hrest⟩
  · rintro ⟨part, hpart, hway⟩
    refine .choose hpart ?_
    rwa [List.append_nil]

end Way

/-! ## Exact changes -/

/-- A change that is exact on the paths through a list of statements: a name is held after it just if
it is held at the end of some path. -/
structure PathExact (script : Script) (body : List Nat) (change : NameSet → NameSet) : Prop where
  uniform : Uniform change
  exists_way : ∃ way, script.Way body way
  mem_iff : ∀ held name,
    name ∈ change held ↔ ∃ way, script.Way body way ∧ name ∈ script.follow way held

namespace PathExact

variable {body more : List Nat} {change other : NameSet → NameSet} {r : Nat}

theorem nil : PathExact script [] fun held => held where
  uniform := .refl
  exists_way := ⟨[], .nil⟩
  mem_iff := by
    intro held name
    constructor
    · intro hname
      exact ⟨[], .nil, hname⟩
    · rintro ⟨way, hway, hname⟩
      cases hway
      exact hname

theorem plain (hplain : script.alternatives r = []) :
    PathExact script [r] fun held => script.execute held r where
  uniform := uniform_execute r
  exists_way := ⟨[r], (Way.singleton_iff_of_plain hplain).mpr rfl⟩
  mem_iff := by
    intro held name
    simp only [Way.singleton_iff_of_plain hplain, exists_eq_left]
    rfl

/-- **One list after the other**: the second change is applied once, to what all paths through the
first list hold together, and distributes over them. -/
theorem append (h : PathExact script body change) (h' : PathExact script more other) :
    PathExact script (body ++ more) fun held => other (change held) where
  uniform := h.uniform.andThen h'.uniform
  exists_way := by
    obtain ⟨way, hway⟩ := h.exists_way
    obtain ⟨way', hway'⟩ := h'.exists_way
    exact ⟨way ++ way', hway.append hway'⟩
  mem_iff := by
    intro held name
    -- the second change of the merged set is the second change at the end of some path
    rw [h'.uniform.mem_iff_exists h.exists_way (h.mem_iff held)]
    constructor
    · rintro ⟨way, hway, hname⟩
      obtain ⟨way', hway', hname⟩ := (h'.mem_iff _ name).mp hname
      refine ⟨way ++ way', hway.append hway', ?_⟩
      rwa [follow_append]
    · rintro ⟨_, hway, hname⟩
      obtain ⟨way, way', rfl, hway, hway'⟩ := hway.exists_append
      rw [follow_append] at hname
      exact ⟨way, hway, (h'.mem_iff _ name).mpr ⟨way', hway', hname⟩⟩

theorem block (hblock : script.alternatives r = [body]) (h : PathExact script body change) :
    PathExact script [r] change := by
  have hway : ∀ way, script.Way [r] way ↔ script.Way body way := by
    intro way
    rw [Way.singleton_iff_of_compound (by simp [hblock])]
    simp [hblock]
  refine ⟨h.uniform, ?_, ?_⟩
  · simpa only [hway] using h.exists_way
  · simpa only [hway] using h.mem_iff

/-- **Two lists side by side**: a path goes through the one or the other. -/
theorem branch (hbranch : script.alternatives r = [body, more]) (h : PathExact script body change)
    (h' : PathExact script more other) :
    PathExact script [r] fun held => change held ∪ other held := by
  have hway : ∀ way, script.Way [r] way ↔ script.Way body way ∨ script.Way more way := by
    intro way
    rw [Way.singleton_iff_of_compound (by simp [hbranch])]
    simp [hbranch]
  refine ⟨h.uniform.merge h'.uniform, ?_, ?_⟩
  · obtain ⟨way, hbody⟩ := h.exists_way
    exact ⟨way, (hway way).mpr (Or.inl hbody)⟩
  · intro held name
    simp only [NameSet.mem_union, h.mem_iff, h'.mem_iff, hway, or_and_right, exists_or]

end PathExact

/-! ## The walk is exact -/

theorem guard?_eq (cond : Option Nat) (held : NameSet) :
    script.guard? cond held = (script.testedName? cond).filter (· ∈ held) := by
  unfold guard? testedName?
  cases cond.bind (script.nodes[·]?) with
  | none => rfl
  | some node =>
    cases node with
    | expression op lhs rhs =>
      cases op with
      | not => rfl
      | _ => rfl
    | _ => rfl

theorem pathExact_optional {part : Option Nat}
    (h : ∀ t ∈ part.toList, PathExact script [t] fun held => (script.walk t held).held) :
    PathExact script part.toList fun held => (Walk.optional script.walk part held).held := by
  cases part with
  | none => exact .nil
  | some t => exact h t (by simp)

theorem pathExact_sequence {body : List Nat}
    (h : ∀ t ∈ body, PathExact script [t] fun held => (script.walk t held).held) :
    PathExact script body fun held => (Walk.sequence script.walk body held).held := by
  induction body with
  | nil => exact .nil
  | cons r rest ih =>
    have hrest := ih fun t ht => h t (List.mem_cons_of_mem _ ht)
    exact (h r List.mem_cons_self).append hrest

theorem held_walk_of_plain (hgrounded : script.Grounded) {r : Nat}
    (hplain : script.alternatives r = []) (held : NameSet) :
    (script.walk r held).held = script.execute held r := by
  unfold alternatives at hplain
  unfold execute
  cases hnode : script.nodes[r]? with
  | none =>
    rw [walk, hnode]
    rfl
  | some node =>
    rw [walk_eq hgrounded hnode]
    rw [hnode] at hplain
    cases node with
    | branch cond yes no => simp at hplain
    | block body => simp at hplain
    | _ => rfl

/-- **The walk of a statement holds what some path holds**, if no conditional that it comes to tests
the failure of a variable. -/
theorem pathExact_walk (hgrounded : script.Grounded) (r : Nat) (hfree : script.Unguarded [r]) :
    PathExact script [r] fun held => (script.walk r held).held := by
  -- references go back, so the induction is on the position
  induction r using Nat.strongRecOn with
  | ind r ih =>
    have hself : script.Walked [r] r := .member (by simp)
    -- what an alternative refers to is walked in turn, so it is unguarded, too
    have hpart : ∀ node, script.nodes[r]? = some node → ∀ part ∈ script.alternatives r,
        ∀ t ∈ part, t ∈ node.refs →
          PathExact script [t] fun held => (script.walk t held).held := by
      intro node hnode part hpart t ht hrefs
      refine ih t (hgrounded.refs_lt hnode t hrefs) (hfree.of_forall fun s hs => ?_)
      obtain rfl := List.mem_singleton.mp hs
      exact hself.inner hpart ht
    cases halternatives : script.alternatives r with
    | nil =>
      simp only [held_walk_of_plain hgrounded halternatives]
      exact .plain halternatives
    | cons first rest =>
      -- a compound statement, so a conditional or a block
      unfold alternatives at halternatives
      split at halternatives
      · next cond yes no hnode =>
        have hbranch : script.alternatives r = [yes.toList, no.toList] := by
          simp only [alternatives, hnode]
        have hyes : PathExact script yes.toList _ := pathExact_optional fun t ht =>
          hpart _ hnode _ (by simp [hbranch]) t ht
            (List.mem_append_left _ (List.mem_append_right _ ht))
        have hno : PathExact script no.toList _ := pathExact_optional fun t ht =>
          hpart _ hnode _ (by simp [hbranch]) t ht (List.mem_append_right _ ht)
        -- with no variable to test, both branches are entered whatever is held
        have hguard : ∀ held, script.guard? cond held = none := by
          intro held
          rw [guard?_eq, hfree r hself cond yes no hnode]
          rfl
        simp only [walk_eq hgrounded hnode, walkNode, hguard]
        exact .branch hbranch hyes hno
      · next body hnode =>
        have hblock : script.alternatives r = [body] := by
          simp only [alternatives, hnode]
        simp only [walk_eq hgrounded hnode]
        exact .block hblock (pathExact_sequence fun t ht =>
          hpart _ hnode _ (by simp [hblock]) t ht ht)
      · cases halternatives

/-- **A walk holds what some path holds.** In every script that is put together, for every list of
statements in which no conditional that the walk comes to has a condition of the form `!x`, and
whatever is held before: the walk holds a name in the end just if it is held at the end of some path
through the statements. So there are names that the walk adds and names that it drops, the same
whatever is held before: the more is held before, the more is held in the end, and what a walk makes
of a union is the union of what it makes of the parts. The walk of an optional statement is the walk
of the list of it. -/
theorem walk_holds_what_some_path_holds {steps : List Step} {top : List Nat} {script : Script}
    (h : Script.build steps top = .ok script) {body : List Nat} (hfree : script.Unguarded body) :
    let result := fun held => (Walk.sequence script.walk body held).held
    (∀ held name, name ∈ result held ↔
      ∃ way, script.Way body way ∧ name ∈ script.follow way held) ∧
    (∃ adds drops : NameSet, ∀ held name,
      name ∈ result held ↔ name ∈ adds ∨ name ∈ held ∧ name ∉ drops) ∧
    (∀ held more : NameSet, (∀ name ∈ held, name ∈ more) →
      ∀ name ∈ result held, name ∈ result more) ∧
    (∀ held more, result (held ∪ more) = result held ∪ result more) ∧
    ∀ part : Option Nat, part.toList = body →
      ∀ held, (Walk.optional script.walk part held).held = result held := by
  intro result
  have hgrounded := grounded_of_build h
  have hexact : PathExact script body result := by
    refine pathExact_sequence fun t ht => pathExact_walk hgrounded t (hfree.of_forall ?_)
    intro s hs
    obtain rfl := List.mem_singleton.mp hs
    exact .member ht
  refine ⟨hexact.mem_iff, hexact.uniform, fun _ _ => hexact.uniform.mono,
    hexact.uniform.map_union, ?_⟩
  rintro part rfl held
  cases part with
  | none => rfl
  | some t => rfl

/-- A handle is opened, and a conditional in a block closes it or opens another. Its condition is a
negation, but not of a variable. -/
def forkSteps : List Step :=
  [.call "open_sock_tcp" [], .assign "s" 0, .reference "x", .integer 1, .binary 2 .eq 3,
    .negation 4, .reference "s", .call "close" [6], .assign "t" 0, .branch 5 7 (some 8), .block [9]]

/-- The script of these steps. -/
def forkScript : Script where
  nodes := #[.call "open_sock_tcp" [], .lvalue "s" [], .assignment (some 1) (some 0),
    .lvalue "x" [], .integer 1, .expression .eq (some 3) (some 4), .expression .not none (some 5),
    .lvalue "s" [], .call "close" [⟨none, some 7⟩], .lvalue "t" [], .assignment (some 9) (some 0),
    .branch (some 6) (some 8) (some 10), .block [11]]
  top := [2, 12]

theorem walk_of_forkScript :
    Script.build forkSteps [1, 10] = .ok forkScript ∧ forkScript.Unguarded [2, 12] ∧
      (∀ held name, name ∈ (Walk.sequence forkScript.walk [2, 12] held).held ↔
        ∃ way, forkScript.Way [2, 12] way ∧ name ∈ forkScript.follow way held) ∧
      (Walk.sequence forkScript.walk [2, 12] ∅).held.toList = ["s", "t"] := by
  have hbuild : Script.build forkSteps [1, 10] = .ok forkScript := by rfl
  have hfree : forkScript.Unguarded [2, 12] := by
    intro r _ cond yes no hnode
    have hmem := Array.mem_of_getElem? hnode
    obtain ⟨rfl, -, -⟩ : cond = some 6 ∧ yes = some 8 ∧ no = some 10 := by
      simpa [forkScript] using hmem
    rfl
  exact ⟨hbuild, hfree, (walk_holds_what_some_path_holds hbuild hfree).1, by decide +kernel⟩

end Script

end ScriptLint
