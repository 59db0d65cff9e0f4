import ScriptLint.Proofs.Schedule.Nesting

/-!
# The catalog of a table

A catalog is made from a table by going through it once: a check is kept if none of the checks kept
so far has its name. What its name is compared with is the catalog as far as it is made, and not the
table; but it comes to the same, since the first check of a name is always kept. So the catalog has
the entries of the table whose name no earlier entry has, and each of the others is warned of.

That names are distinct in a catalog is what the runner relies on when it prepares a check. A check
that ran is taken off the pending ones by its name, and with it every other check of that name. In a
run that prepares a check, the pending checks are part of the catalog, so there is no other.

## Main definitions

* `Check.IsFirst`: entries of a table whose name no earlier entry has
* `Catalog.SingletonOrAvailable`: what a call below the top level is given

## Main results

* `Check.firsts_eq_and_repeats_eq`: what is kept and what is not, by the positions in a table
* `Check.firsts_append_seen`, `Check.firsts_append`: more names seen, and one table after another
* `Catalog.filter_warn_ofTableJournal`: what is warned of while a catalog is made
* `Catalog.ofTable_checks`: a catalog is the catalog of its checks
* `Catalog.nodup_names_prerequisites`: the prerequisites of a check have distinct names
* `Catalog.Runs.singletonOrAvailable`: what the calls that a run makes are given
* `Catalog.ofTable_keeps_first_of_each_name`: all of it in one
-/

namespace ScriptLint

variable {α : Type}

/-! ## The first check of each name -/

namespace Check

/-- An entry of a table, given with its position, whose name no earlier entry has. -/
def IsFirst (table : List (Check α)) (entry : Check α × Nat) : Prop :=
  ∀ earlier ∈ table.take entry.2, earlier.name ≠ entry.1.name

instance (table : List (Check α)) : DecidablePred (IsFirst table) :=
  fun entry => inferInstanceAs (Decidable (∀ earlier ∈ table.take entry.2, _))

theorem isFirst_append_cons {before rest : List (Check α)} {check : Check α} :
    IsFirst (before ++ check :: rest) (check, before.length) ↔
      check.name ∉ before.map Check.name := by
  simp only [IsFirst, List.take_left, List.mem_map, not_exists, not_and]

/-- **What is kept and what is not**, of the rest of a table: the entries that are the first of
their names, and the others. -/
theorem firsts_eq_and_repeats_eq (seen : List String) (before rest : List (Check α))
    (hseen : ∀ name, name ∈ seen ↔ name ∈ before.map Check.name) :
    firsts seen rest =
        ((rest.zipIdx before.length).filter (IsFirst (before ++ rest))).map Prod.fst ∧
      repeats seen rest =
        ((rest.zipIdx before.length).filter (¬ IsFirst (before ++ rest) ·)).map Prod.fst := by
  -- the invariant is `hseen`: the names seen are those of all entries before, kept or not
  induction rest generalizing seen before with
  | nil => exact ⟨rfl, rfl⟩
  | cons check rest ih =>
    have hfirst : IsFirst (before ++ check :: rest) (check, before.length) ↔ check.name ∉ seen := by
      rw [isFirst_append_cons, hseen]
    -- the induction hypothesis, for the same table with one more entry passed
    have hrest : ∀ later : List String, (∀ name, name ∈ later ↔ name ∈ seen ∨ name = check.name) →
        firsts later rest = ((rest.zipIdx (before.length + 1)).filter
            (IsFirst (before ++ check :: rest))).map Prod.fst ∧
          repeats later rest = ((rest.zipIdx (before.length + 1)).filter
            (¬ IsFirst (before ++ check :: rest) ·)).map Prod.fst := by
      intro later hlater
      have hpassed := ih later (before ++ [check]) (by simp [hlater, hseen])
      rwa [List.length_append, List.append_assoc] at hpassed
    rw [firsts, repeats, List.zipIdx_cons]
    by_cases hmem : check.name ∈ seen
    · have hlater : ∀ name, name ∈ seen ↔ name ∈ seen ∨ name = check.name := by
        intro name
        exact (or_iff_left_of_imp fun heq => heq ▸ hmem).symm
      obtain ⟨hfirsts, hrepeats⟩ := hrest seen hlater
      have hnot : ¬ IsFirst (before ++ check :: rest) (check, before.length) :=
        fun h => hfirst.mp h hmem
      simp [hmem, hnot, hfirsts, hrepeats]
    · obtain ⟨hfirsts, hrepeats⟩ := hrest (check.name :: seen) (by simp [or_comm])
      simp [hmem, hfirst.mpr hmem, hfirsts, hrepeats]

theorem firsts_eq (table : List (Check α)) :
    firsts [] table = (table.zipIdx.filter (IsFirst table)).map Prod.fst :=
  (firsts_eq_and_repeats_eq [] [] table fun _ => Iff.rfl).1

theorem repeats_eq (table : List (Check α)) :
    repeats [] table = (table.zipIdx.filter (¬ IsFirst table ·)).map Prod.fst :=
  (firsts_eq_and_repeats_eq [] [] table fun _ => Iff.rfl).2

theorem firsts_sublist (table : List (Check α)) : (firsts [] table).Sublist table := by
  have hsublist := (List.filter_sublist (p := fun entry => decide (IsFirst table entry))
    (l := table.zipIdx)).map Prod.fst
  rwa [List.zipIdx_map_fst, ← firsts_eq] at hsublist

/-- An entry of a table is kept, or else it is a repetition. -/
theorem length_repeats_add_length_firsts (table : List (Check α)) :
    (repeats [] table).length + (firsts [] table).length = table.length := by
  have hcount := List.length_eq_countP_add_countP (l := table.zipIdx)
    (fun entry => decide (IsFirst table entry))
  simp only [List.length_zipIdx, List.countP_eq_length_filter, decide_eq_true_eq] at hcount
  rw [repeats_eq, firsts_eq, List.length_map, List.length_map, hcount, Nat.add_comm]

/-- The names of the checks that are kept are those that were not seen. -/
theorem mem_map_name_firsts {seen : List String} {checks : List (Check α)} {name : String} :
    name ∈ (firsts seen checks).map Check.name ↔
      name ∈ checks.map Check.name ∧ name ∉ seen := by
  induction checks generalizing seen with
  | nil => simp [firsts]
  | cons check rest ih =>
    unfold firsts
    split
    · grind
    · grind

/-! ### One table after another -/

/-- What is kept depends on the names seen, and not on their order. -/
theorem firsts_congr {seen others : List String} (h : ∀ name, name ∈ seen ↔ name ∈ others)
    (checks : List (Check α)) : firsts seen checks = firsts others checks := by
  induction checks generalizing seen others with
  | nil => rfl
  | cons check rest ih =>
    have hcons : ∀ name, name ∈ check.name :: seen ↔ name ∈ check.name :: others := by
      intro name
      rw [List.mem_cons, List.mem_cons, h]
    simp only [firsts, h check.name, ih h, ih hcons]

/-- A name that was seen already adds nothing. -/
theorem firsts_cons_seen {seen : List String} {name : String} (h : name ∈ seen)
    (checks : List (Check α)) : firsts (name :: seen) checks = firsts seen checks := by
  refine firsts_congr (fun other => ?_) checks
  rw [List.mem_cons]
  exact or_iff_right_of_imp fun heq => heq ▸ h

theorem firsts_append_cons_seen (more seen : List String) (name : String)
    (checks : List (Check α)) :
    firsts (more ++ name :: seen) checks = firsts (name :: (more ++ seen)) checks :=
  firsts_congr (fun _ => List.perm_middle.mem_iff) checks

/-- **If more names were seen**, the checks of these names are not kept, and all others are as
before. -/
theorem firsts_append_seen (more seen : List String) (checks : List (Check α)) :
    firsts (more ++ seen) checks = (firsts seen checks).filter (·.name ∉ more) := by
  induction checks generalizing seen with
  | nil => rfl
  | cons check rest ih =>
    have hkept := ih (check.name :: seen)
    rw [firsts_append_cons_seen] at hkept
    by_cases hmem : check.name ∈ seen
    · simp [firsts, hmem, ih]
    · by_cases hmore : check.name ∈ more
      · -- the one side leaves the check out as seen, the other keeps it and then filters it out
        rw [firsts_cons_seen (List.mem_append_left seen hmore)] at hkept
        simp [firsts, hmem, hmore, hkept]
      · simp [firsts, hmem, hmore, hkept]

/-- **One table after another**: what is kept of the second are the checks with names that the
first does not have. -/
theorem firsts_append (seen : List String) (checks more : List (Check α)) :
    firsts seen (checks ++ more) =
      firsts seen checks ++ (firsts seen more).filter (·.name ∉ checks.map Check.name) := by
  -- as the second table is reached, all names of the first were seen, those left out included
  rw [← firsts_append_seen]
  induction checks generalizing seen with
  | nil => rfl
  | cons check rest ih =>
    rw [List.cons_append, List.map_cons, List.cons_append, firsts, firsts]
    split
    · next hmem => rw [ih, firsts_cons_seen (List.mem_append_right _ hmem)]
    · rw [ih, firsts_append_cons_seen, List.cons_append]

/-- Checks with distinct names that were not seen are all kept. -/
theorem firsts_eq_self {seen : List String} {checks : List (Check α)}
    (hnodup : (checks.map Check.name).Nodup) (hnew : ∀ check ∈ checks, check.name ∉ seen) :
    firsts seen checks = checks := by
  induction checks generalizing seen with
  | nil => rfl
  | cons check rest ih =>
    obtain ⟨hname, hrest⟩ := List.nodup_cons.mp hnodup
    rw [firsts, if_neg (hnew check List.mem_cons_self), ih hrest]
    intro other hother
    rw [List.mem_cons, not_or]
    refine ⟨fun heq => hname (heq ▸ List.mem_map_of_mem hother), ?_⟩
    exact hnew other (List.mem_cons_of_mem _ hother)

end Check

namespace Catalog

/-- The warnings while a catalog is made are of the repetitions in its table. -/
theorem filter_warn_ofTableJournal (table : List (Check α)) :
    (ofTableJournal table).filter (·.level = .warn) =
      (Check.repeats [] table).map (Event.repeated ·.name) := by
  have hwarn : ∀ event ∈ (Check.repeats [] table).map (Event.repeated ·.name),
      decide (event.level = .warn) = true := by
    intro event hevent
    obtain ⟨check, -, rfl⟩ := List.mem_map.mp hevent
    rfl
  -- the number of checks kept, which is noted last, is no warning
  rw [ofTableJournal, List.filter_append, List.filter_eq_self.mpr hwarn]
  exact List.append_nil _

/-- **A catalog is the catalog of its checks.** -/
theorem ofTable_checks (catalog : Catalog α) : ofTable catalog.checks = catalog := by
  obtain ⟨checks, distinct⟩ := catalog
  have hself : Check.firsts [] checks = checks := Check.firsts_eq_self distinct (by simp)
  simp only [ofTable, hself]

/-! ## Prerequisites -/

variable {catalog : Catalog α}

theorem prerequisites_sublist (catalog : Catalog α) (check : Check α) :
    (catalog.prerequisites check).Sublist catalog.checks :=
  List.filter_sublist

/-- **The prerequisites of a check have distinct names**, also if the check is not in the
catalog. -/
theorem nodup_names_prerequisites (catalog : Catalog α) (check : Check α) :
    ((catalog.prerequisites check).map Check.name).Nodup :=
  catalog.distinct.sublist ((catalog.prerequisites_sublist check).map Check.name)

/-- A check is no prerequisite of its own, nor is another check of its name. -/
theorem name_not_mem_prerequisites (catalog : Catalog α) (check : Check α) :
    check.name ∉ (catalog.prerequisites check).map Check.name := by
  intro hmem
  obtain ⟨provider, hprovider, hname⟩ := List.mem_map.mp hmem
  have hprepares := (List.mem_filter.mp hprovider).2
  simp [Check.prepares, hname] at hprepares

theorem nodup_names_available (catalog : Catalog α) (stack : List String) (check : Check α) :
    ((catalog.available stack check).map Check.name).Nodup :=
  (catalog.nodup_names_prerequisites check).sublist (List.filter_sublist.map Check.name)

/-! ## The calls of a run -/

/-- What a call below the top level is given: one check to prepare, or the available prerequisites
of a check to run. -/
def SingletonOrAvailable (catalog : Catalog α) (checks : List (Check α)) : Prop :=
  (∃ check, checks = [check]) ∨ ∃ stack check, checks = catalog.available stack check

theorem SingletonOrAvailable.nodup_names {checks : List (Check α)}
    (h : catalog.SingletonOrAvailable checks) : (checks.map Check.name).Nodup := by
  obtain ⟨check, rfl⟩ | ⟨stack, check, rfl⟩ := h
  · exact List.pairwise_singleton _ check.name
  · exact catalog.nodup_names_available stack check

mutual

/-- **What the calls that a run makes are given**: one check, or available prerequisites. -/
theorem Runs.singletonOrAvailable {stack after : List String} {pending : List (Check α)}
    {facts : Facts} {run : Run α} {calls : List (Call α)}
    (h : catalog.Runs stack pending facts run after calls) :
    ∀ call ∈ calls, catalog.SingletonOrAvailable call.checks := by
  match h with
  | .nothing _ _ => simp
  | .deadlock _ _ _ => simp
  | .death _ hround _ => exact hround.singletonOrAvailable
  | .next _ hround _ hrest =>
    intro call hcall
    rcases List.mem_append.mp hcall with hcall | hcall
    · exact hround.singletonOrAvailable call hcall
    · exact hrest.singletonOrAvailable call hcall
termination_by structural h

theorem CarriesOut.singletonOrAvailable {stack after : List String}
    {ready pending : List (Check α)} {facts : Facts} {round : Round α} {calls : List (Call α)}
    (h : catalog.CarriesOut stack ready pending facts round after calls) :
    ∀ call ∈ calls, catalog.SingletonOrAvailable call.checks := by
  match h with
  | .nil _ _ _ => simp
  | .died hprepare _ _ =>
    intro call hcall
    rcases List.mem_cons.mp hcall with rfl | hcall
    · exact .inl ⟨_, rfl⟩
    · exact hprepare.singletonOrAvailable call hcall
  | .next hprepare _ _ hrest =>
    intro call hcall
    rcases List.mem_cons.mp hcall with rfl | hcall
    · exact .inl ⟨_, rfl⟩
    rcases List.mem_append.mp hcall with hcall | hcall
    · exact hprepare.singletonOrAvailable call hcall
    · exact hrest.singletonOrAvailable call hcall
termination_by structural h

theorem Prepares.singletonOrAvailable {stack after : List String} {check : Check α}
    {facts : Facts} {preparation : Preparation α} {calls : List (Call α)}
    (h : catalog.Prepares stack check facts preparation after calls) :
    ∀ call ∈ calls, catalog.SingletonOrAvailable call.checks := by
  match h with
  | .idle _ => simp
  | .nested _ hrun =>
    intro call hcall
    rcases List.mem_cons.mp hcall with rfl | hcall
    · exact .inr ⟨_, _, rfl⟩
    · exact hrun.singletonOrAvailable call hcall
termination_by structural h

end

section ExistsCall

variable {stack after : List String} {check : Check α} {facts : Facts} {calls : List (Call α)}

/-- The preparation of a check that has available prerequisites in test mode makes a call to run
them. -/
theorem Prepares.exists_call {preparation : Preparation α}
    (h : catalog.Prepares stack check facts preparation after calls)
    (hnested : facts.testMode ∧ check.name ∉ stack ∧ catalog.available stack check ≠ []) :
    ∃ call ∈ calls, call.checks = catalog.available stack check := by
  cases h with
  | idle hidle => exact absurd hnested hidle
  | nested _ _ => exact ⟨_, List.mem_cons_self, rfl⟩

theorem CarriesOut.exists_call {ready pending : List (Check α)} {round : Round α}
    (h : catalog.CarriesOut stack (check :: ready) pending facts round after calls)
    (hnested : facts.testMode ∧ check.name ∉ stack ∧ catalog.available stack check ≠ []) :
    ∃ call ∈ calls, call.checks = catalog.available stack check := by
  cases h with
  | died hprepare _ _ =>
    obtain ⟨call, hcall, hchecks⟩ := hprepare.exists_call hnested
    exact ⟨call, List.mem_cons_of_mem _ hcall, hchecks⟩
  | next hprepare _ _ _ =>
    obtain ⟨call, hcall, hchecks⟩ := hprepare.exists_call hnested
    exact ⟨call, List.mem_cons_of_mem _ (List.mem_append_left _ hcall), hchecks⟩

/-- A run makes such a call for the first check that is ready. -/
theorem Runs.exists_call {pending ready : List (Check α)} {run : Run α}
    (h : catalog.Runs stack pending facts run after calls)
    (hready : pending.filter (·.ready facts) = check :: ready)
    (hnested : facts.testMode ∧ check.name ∉ stack ∧ catalog.available stack check ≠ []) :
    ∃ call ∈ calls, call.checks = catalog.available stack check := by
  cases h with
  | nothing => cases hready
  | deadlock _ _ hnone =>
    rw [hnone] at hready
    cases hready
  | death _ hround _ =>
    rw [hready] at hround
    exact hround.exists_call hnested
  | next _ hround _ _ =>
    rw [hready] at hround
    obtain ⟨call, hcall, hchecks⟩ := hround.exists_call hnested
    exact ⟨call, List.mem_append_left _ hcall, hchecks⟩

end ExistsCall

/-- **A catalog keeps the first check of each name** in its table. It has, in order, the entries
whose name no earlier entry has; these are part of the table, with distinct names, which are all
names in the table. Each of the other entries is warned of. If a table is followed by another, the
catalog of both has what the first keeps, and then what the second keeps under names that the first
does not have. The catalog of the checks of a catalog is that catalog. So the prerequisites of any
check are part of the catalog, with distinct names, none of them the name of the check; and every
call that a run makes below the top level, be it to prepare a check or to run what prepares it, is
given checks of distinct names. -/
theorem ofTable_keeps_first_of_each_name (table : List (Check α)) :
    let catalog := ofTable table
    catalog.checks = (table.zipIdx.filter (Check.IsFirst table)).map Prod.fst ∧
    catalog.checks.Sublist table ∧
    catalog.names.Nodup ∧
    (∀ name, name ∈ catalog.names ↔ name ∈ table.map Check.name) ∧
    (ofTableJournal table).filter (·.level = .warn) =
      (table.zipIdx.filter (¬ Check.IsFirst table ·)).map (Event.repeated ·.1.name) ∧
    ((ofTableJournal table).filter (·.level = .warn)).length + catalog.checks.length =
      table.length ∧
    (∀ more : List (Check α), (ofTable (table ++ more)).checks =
      catalog.checks ++ (ofTable more).checks.filter (·.name ∉ table.map Check.name)) ∧
    ofTable catalog.checks = catalog ∧
    (∀ check, (catalog.prerequisites check).Sublist catalog.checks ∧
      ((catalog.prerequisites check).map Check.name).Nodup ∧
      check.name ∉ (catalog.prerequisites check).map Check.name) ∧
    ∀ pending facts run after calls, catalog.Runs [] pending facts run after calls →
      ∀ call ∈ calls, (call.checks.map Check.name).Nodup := by
  intro catalog
  refine ⟨Check.firsts_eq table, Check.firsts_sublist table, catalog.distinct, ?_, ?_, ?_, ?_,
    ofTable_checks catalog, ?_, ?_⟩
  · intro name
    refine Check.mem_map_name_firsts.trans ?_
    simp
  · rw [filter_warn_ofTableJournal, Check.repeats_eq, List.map_map]
    rfl
  · rw [filter_warn_ofTableJournal, List.length_map]
    exact Check.length_repeats_add_length_firsts table
  · intro more
    exact Check.firsts_append [] table more
  · intro check
    exact ⟨catalog.prerequisites_sublist check, catalog.nodup_names_prerequisites check,
      catalog.name_not_mem_prerequisites check⟩
  · intro pending facts run after calls hrun call hcall
    exact (hrun.singletonOrAvailable call hcall).nodup_names

/-- Two checks that provide a link, and one that has the name of the first and is fatal. -/
def relays : List (Check Unit) :=
  [{ name := "left", provides := [.named "link"], body := .done () },
    { name := "right", provides := [.named "link"], body := .done () },
    { name := "left", provides := [.named "link"], body := Body.fatal }]

/-- A check that requires the link. -/
def receiver : Check Unit :=
  { name := "receiver", requires := [.named "link"], body := .done () }

/-- The link is known, and test mode is on. -/
def linkedFacts : Facts :=
  (Facts.none.insert (.named "link") (.text "")).setTestMode true

/-- In test mode the receiver, which is not in the catalog, is prepared by both relays. -/
theorem relays_keep_first_of_each_name :
    (ofTable relays).names = ["left", "right"] ∧
      (ofTableJournal relays).filter (·.level = .warn) = [.repeated "left"] ∧
      ∃ run after calls, (ofTable relays).Runs [] [receiver] linkedFacts run after calls ∧
        (∃ call ∈ calls, call.checks.map Check.name = ["left", "right"]) ∧
        ∀ call ∈ calls, (call.checks.map Check.name).Nodup := by
  obtain ⟨-, -, -, -, hwarnings, -, -, -, -, hcalls⟩ := ofTable_keeps_first_of_each_name relays
  have havailable : ((ofTable relays).available [] receiver).map Check.name = ["left", "right"] := by
    decide +kernel
  have hne : (ofTable relays).available [] receiver ≠ [] := by
    intro hnil
    rw [hnil] at havailable
    cases havailable
  obtain ⟨calls, hrun⟩ := (ofTable relays).exists_runs [] [receiver] linkedFacts
  have hready : [receiver].filter (·.ready linkedFacts) = receiver :: [] := rfl
  obtain ⟨call, hcall, hchecks⟩ := hrun.exists_call hready ⟨rfl, List.not_mem_nil, hne⟩
  refine ⟨by decide +kernel, ?_, _, _, calls, hrun, ⟨call, hcall, ?_⟩, hcalls _ _ _ _ _ hrun⟩
  · rw [hwarnings]
    decide +kernel
  · rw [hchecks, havailable]

end Catalog

end ScriptLint
