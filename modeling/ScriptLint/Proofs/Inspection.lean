import ScriptLint.Proofs.Leak.Warnings
import ScriptLint.Suite

/-!
# Inspections leave everything as it was

An inspection answers a request from the files under check, and from nothing else. A request is
refused if it has a name that is no name of the suite, and all other requests ask for the same: the
one check of the suite. It runs just if something is filed under the topic of the scripts, be it
files or not; and since it files nothing itself, the facts are afterwards what they were before. So
inspections do not disturb each other, and nothing that is filed between them under another topic,
not even test mode, shows in the answers.

The answer is what is handed back: for each check that ran its report, why the run ended early, and
what did not run. An execution holds more than that, such as the facts it started from.

## Main definitions

* `suiteNames`: the names under which a request may ask for the check of the suite
* `Answer`, `Inspection.answer`: what is handed back to who asked
* `SessionStep`, `answers`: facts filed and inspections asked for in turn, and the answers to these

## Main results

* `suiteCatalog_select`: what a request selects, or the first name that is unknown
* `suiteCatalog_run_of_knows`, `suiteCatalog_run_of_not_knows`: how the check of the suite is run
* `answer_inspect`: the answer to a request, by what is filed under the topic of the scripts
* `answer_mem_answers`: the answers of a session are all the same
* `inspect_answers_from_scripts_alone`: all of it in one
-/

namespace ScriptLint

/-! ## Requests -/

/-- The names under which a request may ask for the check of the suite: its name and its title. -/
def suiteNames : List String :=
  ["SocketLeak", "Socket Leak"]

theorem suiteCatalog_checks : suiteCatalog.checks = [socketLeak] := by
  simp [suiteCatalog, Catalog.ofTable, suite, Check.firsts]

theorem suiteCatalog_find (name : String) :
    suiteCatalog.find name =
      if name ∈ suiteNames then .ok socketLeak else .error (.unknownCheck name) := by
  have htitle : socketLeak.title = "Socket Leak" := by decide +kernel
  have hname : socketLeak.name = "SocketLeak" := rfl
  have hiff : (socketLeak.name = name ∨ socketLeak.title = name) ↔ name ∈ suiteNames := by
    simp only [hname, htitle, suiteNames, List.mem_pair, eq_comm]
  simp only [Catalog.find, suiteCatalog_checks, List.find?_cons, List.find?_nil, hiff]
  by_cases hmem : name ∈ suiteNames
  · simp [hmem]
  · simp [hmem]

/-- The names of a request are looked up in order, up to the first that is unknown. -/
theorem mapM_suiteCatalog_find (only : List String) :
    only.mapM suiteCatalog.find =
      match only.find? (· ∉ suiteNames) with
      | some name => .error (.unknownCheck name)
      | none => .ok (only.map fun _ => socketLeak) := by
  induction only with
  | nil => rfl
  | cons name rest ih =>
    rw [List.mapM_cons, suiteCatalog_find, ih]
    -- a known name leaves it to the rest, and an unknown one ends the look-up
    by_cases hmem : name ∈ suiteNames
    · rw [if_pos hmem, List.find?_cons_of_neg (by simpa using hmem)]
      cases rest.find? (· ∉ suiteNames) with
      | none => rfl
      | some unknown => rfl
    · rw [if_neg hmem, List.find?_cons_of_pos (by simpa using hmem)]
      rfl

theorem Check.firsts_map_const {α β : Type} (check : Check α) {values : List β}
    (hne : values ≠ []) : Check.firsts [] (values.map fun _ => check) = [check] := by
  have hseen : ∀ rest : List β, Check.firsts [check.name] (rest.map fun _ => check) = [] := by
    intro rest
    induction rest with
    | nil => rfl
    | cons value rest ih => simpa [Check.firsts] using ih
  cases values with
  | nil => exact absurd rfl hne
  | cons value rest => simpa [Check.firsts] using hseen rest

/-- **What a request selects**: the one check of the suite, however often and by whichever name it
is asked for, unless a name is unknown. -/
theorem suiteCatalog_select (only : List String) :
    suiteCatalog.select only =
      match only.find? (· ∉ suiteNames) with
      | some name => .error (.unknownCheck name)
      | none => .ok [socketLeak] := by
  cases only with
  | nil =>
    rw [Catalog.select, suiteCatalog_checks]
    rfl
  | cons first rest =>
    rw [Catalog.select, if_neg (by simp), mapM_suiteCatalog_find]
    cases (first :: rest).find? (· ∉ suiteNames) with
    | some name => rfl
    | none =>
      exact congrArg Except.ok (Check.firsts_map_const socketLeak (List.cons_ne_nil first rest))

/-! ## The run -/

/-- Nothing prepares the check of the suite, in test mode or not. -/
theorem suiteCatalog_prepare (facts : Facts) :
    suiteCatalog.prepare [] socketLeak facts = .none facts := by
  have havailable : suiteCatalog.available [] socketLeak = [] := by
    rw [Catalog.available, Catalog.prerequisites, suiteCatalog_checks]
    simp [Check.prepares]
  rw [Catalog.prepare_eq]
  exact if_neg fun h => h.2.2 havailable

/-- The execution of the check of the suite. -/
def leakExecution (facts : Facts) : Execution Unit :=
  .ofPreparation socketLeak [] facts (.none facts)

theorem facts_leakExecution (facts : Facts) : (leakExecution facts).outcome.facts = facts :=
  keepsFacts_socketLeak {} facts

/-- The check of the suite passes or warns, and does not die. -/
theorem died_leakExecution (facts : Facts) : (leakExecution facts).died = false := by
  have hverdict : (leakExecution facts).verdict =
      if facts.files.flatMap (·.script.warnings) = [] then .pass else .warn :=
    verdict_socketLeak {} facts
  rw [Execution.died, hverdict]
  split
  · rfl
  · rfl

theorem socketLeak_ready (facts : Facts) : socketLeak.ready facts = facts.has .scripts := by
  simp [Check.ready, socketLeak]

/-- The check of the suite runs if something is filed under the topic of the scripts. -/
theorem suiteCatalog_run_of_knows {facts : Facts} (h : facts.Knows .scripts) :
    suiteCatalog.run [socketLeak] facts =
      { done := [leakExecution facts], halt := none, notRun := [], facts,
        journal := (leakExecution facts).journal } := by
  have hready : [socketLeak].filter (·.ready facts) = [socketLeak] :=
    List.filter_cons_of_pos ((socketLeak_ready facts).trans h)
  -- one round is enough: the check does not die, and nothing is pending after it
  have hround : Round.carryOut [] (suiteCatalog.prepare []) [socketLeak] [socketLeak] facts =
      { done := [leakExecution facts], died := false, pending := [], facts,
        journal := (leakExecution facts).journal } := by
    rw [Round.carryOut, suiteCatalog_prepare]
    change (if (leakExecution facts).died then _ else _) = _
    rw [if_neg (by simp [died_leakExecution facts])]
    simp only [Round.carryOut, Check.others]
    change Round.mk [leakExecution facts] false [] (leakExecution facts).outcome.facts
      ([] ++ (leakExecution facts).journal ++ []) = _
    rw [facts_leakExecution, List.append_nil, List.nil_append]
  rw [Catalog.run, rounds_of_filter_eq_cons _ _ hready, hround]
  simp

/-- Otherwise the run ends in deadlock at once. -/
theorem suiteCatalog_run_of_not_knows {facts : Facts} (h : ¬ facts.Knows .scripts) :
    suiteCatalog.run [socketLeak] facts =
      { done := [], halt := some .deadlock, notRun := [socketLeak], facts,
        journal := [.deadlock ["SocketLeak"]] } := by
  have hready : [socketLeak].filter (·.ready facts) = [] :=
    List.filter_cons_of_neg (by rwa [socketLeak_ready])
  exact rounds_of_filter_eq_nil _ _ (List.cons_ne_nil _ _) hready

theorem facts_suiteCatalog_run (facts : Facts) :
    (suiteCatalog.run [socketLeak] facts).facts = facts := by
  by_cases h : facts.Knows .scripts
  · rw [suiteCatalog_run_of_knows h]
  · rw [suiteCatalog_run_of_not_knows h]

/-! ## Answers -/

/-- What is handed back to who asked for an inspection: each check that ran with its report, why the
run ended early, and the checks that did not run. -/
structure Answer where
  reports : List (Check Unit × Report)
  halt : Option Halt
  notRun : List (Check Unit)

/-- The answer of an inspection, or why the request was refused. -/
def Inspection.answer (inspection : Inspection) : Except Error Answer :=
  inspection.outcome.map fun run =>
    { reports := run.done.map fun execution => (execution.check, execution.outcome.report)
      halt := run.halt
      notRun := run.notRun }

theorem inspect_of_unknown {only : List String} {name : String}
    (h : only.find? (· ∉ suiteNames) = some name) (facts : Facts) :
    inspect facts only =
      { outcome := .error (.unknownCheck name), facts,
        journal := .requested only :: Catalog.ofTableJournal suite } := by
  rw [inspect, suiteCatalog_select, h]

theorem inspect_of_known {only : List String} (h : ∀ name ∈ only, name ∈ suiteNames)
    (facts : Facts) :
    (inspect facts only).outcome = .ok (suiteCatalog.run [socketLeak] facts) ∧
      (inspect facts only).facts = facts := by
  have hnone : only.find? (· ∉ suiteNames) = none := by simpa using h
  rw [inspect, suiteCatalog_select, hnone]
  exact ⟨rfl, facts_suiteCatalog_run facts⟩

/-- **The facts are afterwards what they were before**, be the request refused or not. -/
theorem facts_inspect (facts : Facts) (only : List String) : (inspect facts only).facts = facts := by
  cases hfind : only.find? (· ∉ suiteNames) with
  | none => exact (inspect_of_known (by simpa using hfind) facts).2
  | some name => rw [inspect_of_unknown hfind]

/-- **The answer to a request** is the report of the check of the suite, if something is filed under
the topic of the scripts. -/
theorem answer_inspect {only : List String} (h : ∀ name ∈ only, name ∈ suiteNames)
    (facts : Facts) :
    (inspect facts only).answer = .ok
      (if facts.has .scripts then
        { reports := [(socketLeak, (facts.files.flatMap (·.script.findings)).foldl Report.warnOf
            { verdict := .pass })]
          halt := none, notRun := [] }
      else { reports := [], halt := some .deadlock, notRun := [socketLeak] }) := by
  rw [Inspection.answer, (inspect_of_known h facts).1]
  by_cases hknows : facts.has .scripts = true
  · have hreport : (leakExecution facts).outcome.report = _ := report_socketLeak {} facts
    rw [suiteCatalog_run_of_knows hknows, if_pos hknows]
    simp only [Except.map, List.map_cons, List.map_nil, hreport]
    rfl
  · rw [suiteCatalog_run_of_not_knows hknows, if_neg hknows]
    rfl

/-- Answers depend on nothing but what is filed under the topic of the scripts. -/
theorem answer_congr {facts other : Facts} {only only' : List String}
    (h : ∀ name ∈ only, name ∈ suiteNames) (h' : ∀ name ∈ only', name ∈ suiteNames)
    (hscripts : other.get? .scripts = facts.get? .scripts) :
    (inspect other only').answer = (inspect facts only).answer := by
  -- of all facts, the answer asks for the files and for whether there are any
  have hfiles : other.files = facts.files := by simp only [Facts.files, hscripts]
  have hhas : other.has .scripts = facts.has .scripts := by simp only [Facts.has, hscripts]
  rw [answer_inspect h, answer_inspect h', hfiles, hhas]

/-! ## Sessions -/

/-- A step of a session. -/
inductive SessionStep where
  /-- File a fact under a topic. -/
  | file (topic : Topic) (fact : Fact)
  /-- Ask for an inspection. -/
  | inspect (only : List String)

/-- A step that leaves the files under check alone, and asks for nothing that is unknown. -/
def SessionStep.Regular : SessionStep → Prop
  | file topic _ => topic ≠ .scripts
  | inspect only => ∀ name ∈ only, name ∈ suiteNames

/-- The answers to the requests of a session. Each step meets the facts that the one before it left
behind. -/
def answers (facts : Facts) : List SessionStep → List (Except Error Answer)
  | [] => []
  | .file topic fact :: rest => answers (facts.insert topic fact) rest
  | .inspect only :: rest =>
    let inspection := inspect facts only
    inspection.answer :: answers inspection.facts rest

/-- **The answers of a session are all the same**, as long as the files under check are. -/
theorem answer_mem_answers {facts : Facts} {session : List SessionStep} {only : List String}
    (h : ∀ name ∈ only, name ∈ suiteNames) (hregular : ∀ step ∈ session, step.Regular) :
    ∀ answer ∈ answers facts session, answer = (inspect facts only).answer := by
  induction session generalizing facts with
  | nil => simp [answers]
  | cons step rest ih =>
    have hstep := hregular step List.mem_cons_self
    have hrest := fun step hmem => hregular step (List.mem_cons_of_mem _ hmem)
    intro answer hanswer
    cases step with
    | file topic fact =>
      -- what is filed is not the scripts, so the rest answers as before
      have hscripts : (facts.insert topic fact).get? .scripts = facts.get? .scripts := by
        rw [Facts.get?_insert, if_neg (Ne.symm hstep)]
      rw [ih hrest answer hanswer, answer_congr h h hscripts]
    | inspect request =>
      rcases List.mem_cons.mp hanswer with rfl | hanswer
      · exact answer_congr h hstep rfl
      · -- an inspection before leaves no trace in the facts
        rw [facts_inspect] at hanswer
        exact ih hrest answer hanswer

/-- **An inspection answers from the scripts alone**, and leaves everything as it was. Whatever the
facts and the request are, the facts are afterwards what they were before. If the request has an
unknown name, it is refused for the first of them and no check starts. If it has none, then the check
of the suite runs once, and nothing is left, if something is filed under the topic of the scripts;
and otherwise nothing runs, and the check is left in deadlock. The answer is the same for all such
requests and all facts that agree on the scripts, so in any session that leaves the scripts alone
every answer is the same. -/
theorem inspect_answers_from_scripts_alone (facts : Facts) (only : List String) :
    (inspect facts only).facts = facts ∧
    (∀ name, only.find? (· ∉ suiteNames) = some name →
      (inspect facts only).outcome = .error (.unknownCheck name) ∧
        ∀ check, .started check ∉ (inspect facts only).journal) ∧
    ((∀ name ∈ only, name ∈ suiteNames) →
      (∃ run, (inspect facts only).outcome = .ok run ∧
        (facts.Knows .scripts →
          run.done.map (·.check) = [socketLeak] ∧ run.halt = none ∧ run.notRun = []) ∧
        (¬ facts.Knows .scripts →
          run.done = [] ∧ run.halt = some .deadlock ∧ run.notRun = [socketLeak])) ∧
      (∀ (other : Facts) (only' : List String), other.get? .scripts = facts.get? .scripts →
        (∀ name ∈ only', name ∈ suiteNames) →
          (inspect other only').answer = (inspect facts only).answer) ∧
      ∀ session : List SessionStep, (∀ step ∈ session, step.Regular) →
        ∀ answer ∈ answers facts session, answer = (inspect facts only).answer) := by
  refine ⟨facts_inspect facts only, fun name hname => ?_, fun hknown => ⟨?_, ?_, ?_⟩⟩
  · rw [inspect_of_unknown hname]
    refine ⟨rfl, fun check => ?_⟩
    simp [Catalog.ofTableJournal, suite, Check.repeats]
  · refine ⟨_, (inspect_of_known hknown facts).1, fun h => ?_, fun h => ?_⟩
    · rw [suiteCatalog_run_of_knows h]
      exact ⟨rfl, rfl, rfl⟩
    · rw [suiteCatalog_run_of_not_knows h]
      exact ⟨rfl, rfl, rfl⟩
  · exact fun other only' hscripts hknown' => answer_congr hknown hknown' hscripts
  · exact fun session hregular => answer_mem_answers hknown hregular

end ScriptLint
