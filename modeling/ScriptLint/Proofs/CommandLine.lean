import ScriptLint.CommandLine

/-!
# What a command line sets in motion

A task is carried out only when its name is all there is on the command line. Everything else ends
before anything is done: with the usage text if it is asked for, be it by a help flag anywhere, by
no argument or by one that starts with a dash, and with an error otherwise. The tests overlap, so
which of them is made first decides; here a command line is read by rules that exclude each other.
The reader of the arguments is not known here. It may be any that has the laws of
`ArgumentReader.Lawful`.

The jobs of `ci` are started one after the other, up to the first that does not succeed, whether the
build tool cannot be started or exits with another code than 0. No two of the jobs are the same, so
what the build tool does each time may be told by the job.

## Main definitions

* `AsksForUsage`, `Refused`: the command lines that ask for the usage text, and those with an error
* `Reading`: the three ways in which a command line is read
* `Succeeds`, `UpToFailure`: the jobs that succeed, and jobs up to the first that does not
* `Response.Says`: what a response prints apart from the output of the build tool

## Main results

* `reading_ofArguments`: every command line is read in one of the three ways, by a lawful reader
* `jobsDone_performJobs`: the jobs are started up to the first that does not succeed
* `task_is_performed_only_when_named`: what each command line does
-/

namespace ScriptLint

/-! ## Reading a command line -/

/-- A command line that asks for the usage text. -/
inductive AsksForUsage : List ByteArray → Prop
  /-- There is a help flag, wherever it stands. -/
  | flag {arguments : List ByteArray}
      (h : "-h".toUTF8 ∈ arguments ∨ "--help".toUTF8 ∈ arguments) : AsksForUsage arguments
  /-- There is no argument. -/
  | nothing : AsksForUsage []
  /-- The first argument is a text that starts with a dash. -/
  | dash {text : String} (rest : List ByteArray) (h : text.toList.head? = some '-') :
      AsksForUsage (text.toUTF8 :: rest)

/-- A command line that is refused with an error. -/
inductive Refused (reader : ArgumentReader) : List ByteArray → CommandError → Prop
  /-- The task is not text. The reason is what the reader says when it comes to the task. -/
  | unreadable {first : ByteArray} {rest : List ByteArray} {state : reader.State} {reason : String}
      (h : ¬ first.IsValidUTF8) (hstate : reader.finish state = first :: rest)
      (hreason : reader.subcommand state = .error reason) :
      Refused reader (first :: rest) (.unreadable reason)
  /-- No task has this name, whatever follows it. -/
  | unknownTask {name : String} (rest : List ByteArray) (h : ∀ task : Task, task.name ≠ name) :
      Refused reader (name.toUTF8 :: rest) (.unknownTask name)
  /-- Something follows the name of a task. -/
  | unused (task : Task) {rest : List ByteArray} (h : rest ≠ []) :
      Refused reader (task.name.toUTF8 :: rest) (.unusedArguments rest)

/-- How a command line is read: it asks for the usage text, or it is the name of a task and nothing
else, or it is refused. -/
inductive Reading (reader : ArgumentReader) (arguments : List ByteArray) :
    Except CommandError Request → Prop
  | usage (h : AsksForUsage arguments) : Reading reader arguments (.ok .usage)
  | task {task : Task} (hnot : ¬ AsksForUsage arguments)
      (h : arguments = [task.name.toUTF8]) : Reading reader arguments (.ok (.perform task))
  | refused {error : CommandError} (hnot : ¬ AsksForUsage arguments)
      (h : Refused reader arguments error) : Reading reader arguments (.error error)

theorem Task.ofName?_eq_some_iff {name : String} {task : Task} :
    ofName? name = some task ↔ name = task.name := by
  constructor
  · intro h
    simpa [eq_comm] using List.find?_some h
  · rintro rfl
    cases task with
    | ci => rfl
    | checks => rfl

theorem exists_helpFlag_iff {arguments : List ByteArray} :
    (∃ flag ∈ helpFlags, flag.toUTF8 ∈ arguments) ↔
      "-h".toUTF8 ∈ arguments ∨ "--help".toUTF8 ∈ arguments := by
  simp [helpFlags]

/-- Apart from the flags, only a text that starts with a dash asks for the usage text. -/
theorem not_asksForUsage {first : ByteArray} {rest : List ByteArray}
    (hflag : ¬ ("-h".toUTF8 ∈ first :: rest ∨ "--help".toUTF8 ∈ first :: rest))
    (hdash : ∀ text : String, first = text.toUTF8 → text.toList.head? ≠ some '-') :
    ¬ AsksForUsage (first :: rest) := by
  rintro (h | _ | ⟨_, h⟩)
  · exact hflag h
  · exact hdash _ rfl h

section Lawful

variable {reader : ArgumentReader} (hreader : reader.Lawful)

include hreader

/-- A text that does not start with a dash is taken for the task, and only what follows it is left
to test. -/
theorem reading_ofTask_text {state : reader.State} {name : String} {rest : List ByteArray}
    (hstate : reader.finish state = name.toUTF8 :: rest) (hdash : name.toList.head? ≠ some '-')
    (hnot : ¬ AsksForUsage (name.toUTF8 :: rest)) :
    Reading reader (name.toUTF8 :: rest) (Request.ofTask reader state) := by
  obtain ⟨after, hcommand, hafter⟩ := hreader.subcommand_text hstate hdash
  simp only [Request.ofTask, hcommand, hafter]
  cases htask : Task.ofName? name with
  | none =>
    refine .refused hnot (.unknownTask rest fun task hname => ?_)
    rw [Task.ofName?_eq_some_iff.mpr hname.symm] at htask
    cases htask
  | some task =>
    obtain rfl := Task.ofName?_eq_some_iff.mp htask
    dsimp only
    split
    · next hrest =>
      rw [List.isEmpty_iff.mp hrest] at hnot ⊢
      exact .task hnot rfl
    · next hrest => exact .refused hnot (.unused task (mt List.isEmpty_iff.mpr hrest))

/-- Where there is no help flag, a command line is read by its first argument. -/
theorem reading_ofTask {state : reader.State} {arguments : List ByteArray}
    (hstate : reader.finish state = arguments)
    (hflag : ¬ ("-h".toUTF8 ∈ arguments ∨ "--help".toUTF8 ∈ arguments)) :
    Reading reader arguments (Request.ofTask reader state) := by
  cases arguments with
  | nil =>
    obtain ⟨after, hcommand⟩ := hreader.subcommand_nil hstate
    simp only [Request.ofTask, hcommand]
    exact .usage .nothing
  | cons first rest =>
    by_cases hbytes : first.IsValidUTF8
    · obtain ⟨name, rfl⟩ : ∃ name : String, first = name.toUTF8 := ⟨⟨first, hbytes⟩, rfl⟩
      by_cases hdash : name.toList.head? = some '-'
      · obtain ⟨after, hcommand⟩ := hreader.subcommand_dash hstate hdash
        simp only [Request.ofTask, hcommand]
        exact .usage (.dash rest hdash)
      · refine reading_ofTask_text hreader hstate hdash (not_asksForUsage hflag ?_)
        intro text htext
        rwa [← String.toByteArray_inj.mp htext]
    · obtain ⟨reason, hreason⟩ := hreader.subcommand_bytes hstate hbytes
      simp only [Request.ofTask, hreason]
      refine .refused (not_asksForUsage hflag ?_) (.unreadable hbytes hstate hreason)
      rintro text rfl
      exact absurd text.isValidUTF8 hbytes

/-- **Every command line is read in one of the three ways.** -/
theorem reading_ofArguments (arguments : List ByteArray) :
    Reading reader arguments (Request.ofArguments reader arguments) := by
  have hload := hreader.finish_load arguments
  have hhelp := hreader.contains_iff (reader.load arguments)
  rw [hload, exists_helpFlag_iff] at hhelp
  unfold Request.ofArguments
  dsimp only
  split
  · next hfound => exact .usage (.flag (hhelp.mp hfound))
  · next hfound =>
    refine reading_ofTask hreader ?_ (mt hhelp.mpr hfound)
    rw [hreader.finish_contains (Bool.eq_false_iff.mpr hfound), hload]

end Lawful

theorem ci_ne_checks : ["ci".toUTF8] ≠ ["checks".toUTF8] := by
  intro h
  exact absurd (String.toByteArray_inj.mp (List.cons.inj h).1) (by decide)

/-- The name of a task is not refused if it stands alone. -/
theorem Refused.ne_task {reader : ArgumentReader} {arguments : List ByteArray}
    {error : CommandError} (h : Refused reader arguments error) (task : Task) :
    arguments ≠ [task.name.toUTF8] := by
  intro heq
  cases h with
  | unreadable h _ _ =>
    obtain ⟨rfl, rfl⟩ := List.cons.inj heq
    exact h task.name.isValidUTF8
  | unknownTask rest h =>
    obtain ⟨hname, -⟩ := List.cons.inj heq
    exact h task (String.toByteArray_inj.mp hname.symm)
  | unused other h => exact h (List.cons.inj heq).2

theorem Task.head?_name_ne_dash (task : Task) : task.name.toList.head? ≠ some '-' := by
  cases task with
  | ci => decide
  | checks => decide

/-- The name of a task that stands alone does not ask for the usage text. -/
theorem AsksForUsage.ne_task {arguments : List ByteArray} (h : AsksForUsage arguments)
    (task : Task) : arguments ≠ [task.name.toUTF8] := by
  intro heq
  -- whatever asks for the usage text starts with a dash, the flags included
  have hdash : ∀ text : String, text.toList.head? = some '-' → text.toUTF8 ≠ task.name.toUTF8 := by
    intro text htext hname
    rw [String.toByteArray_inj.mp hname] at htext
    exact task.head?_name_ne_dash htext
  cases h with
  | flag h =>
    rw [heq, List.mem_singleton, List.mem_singleton] at h
    rcases h with h | h
    · exact hdash "-h" (by decide) h
    · exact hdash "--help" (by decide) h
  | nothing => cases heq
  | dash rest h => exact hdash _ h (List.cons.inj heq).1

/-! ## Starting the jobs -/

section Jobs

variable (launch : List String → Launch)

/-- A job on which the build tool is started and exits with code 0. -/
def Succeeds (job : List String) : Prop :=
  ∃ printed, launch job = .exited 0 printed

/-- What the build tool prints. -/
def Launch.printed : Launch → String
  | unable _ => ""
  | exited _ printed => printed

/-- Why a job did not succeed. -/
def Launch.complaint : Launch → String
  | unable reason => reason
  | exited code _ => "exit status: " ++ toString code

/-- What the build tool prints on the given jobs, one after the other. -/
def printedOn (jobs : List (List String)) : String :=
  String.join (jobs.map fun job => (launch job).printed)

/-- The shortest beginning of the jobs that ends with one that does not succeed; all of them if they
all succeed. -/
inductive UpToFailure (jobs : List (List String)) : List (List String) → Prop
  | complete (h : ∀ job ∈ jobs, Succeeds launch job) : UpToFailure jobs jobs
  | failure {before after : List (List String)} {failed : List String}
      (hjobs : jobs = before ++ failed :: after) (hbefore : ∀ job ∈ before, Succeeds launch job)
      (hfailed : ¬ Succeeds launch failed) : UpToFailure jobs (before ++ [failed])

variable {launch}

theorem printedOn_cons (job : List String) (jobs : List (List String)) :
    printedOn launch (job :: jobs) = (launch job).printed ++ printedOn launch jobs := by
  simp [printedOn]

/-- A job that succeeds is started, and then the others are. -/
theorem performJobs_cons {job : List String} (h : Succeeds launch job)
    (rest : List (List String)) :
    performJobs launch (job :: rest) =
      let response := performJobs launch rest
      { response with
        stdout := (launch job).printed ++ response.stdout, started := job :: response.started } := by
  obtain ⟨printed, hjob⟩ := h
  rw [performJobs, hjob]
  rfl

/-- A job that does not succeed is the last to be started. -/
theorem performJobs_cons_of_failure {job : List String} (h : ¬ Succeeds launch job)
    (rest : List (List String)) :
    performJobs launch (job :: rest) =
      { Response.ofError (.jobFailed job (launch job).complaint) with
        stdout := (launch job).printed, started := [job] } := by
  rw [performJobs]
  cases hlaunch : launch job with
  | unable reason => rfl
  | exited code printed =>
    have hcode : code ≠ 0 := by
      rintro rfl
      exact h ⟨printed, hlaunch⟩
    simp [hcode, Response.ofError, Launch.printed, Launch.complaint]

theorem performJobs_of_succeed {jobs : List (List String)}
    (h : ∀ job ∈ jobs, Succeeds launch job) :
    performJobs launch jobs = { stdout := printedOn launch jobs, started := jobs } := by
  induction jobs with
  | nil => rfl
  | cons job rest ih =>
    obtain ⟨hjob, hrest⟩ := List.forall_mem_cons.mp h
    rw [performJobs_cons hjob, ih hrest, printedOn_cons]

theorem performJobs_of_failure {before : List (List String)} {failed : List String}
    (hbefore : ∀ job ∈ before, Succeeds launch job) (hfailed : ¬ Succeeds launch failed)
    (after : List (List String)) :
    performJobs launch (before ++ failed :: after) =
      { Response.ofError (.jobFailed failed (launch failed).complaint) with
        stdout := printedOn launch (before ++ [failed]), started := before ++ [failed] } := by
  induction before with
  | nil =>
    rw [List.nil_append, performJobs_cons_of_failure hfailed]
    simp [printedOn]
  | cons job rest ih =>
    obtain ⟨hjob, hrest⟩ := List.forall_mem_cons.mp hbefore
    rw [List.cons_append, performJobs_cons hjob, ih hrest, List.cons_append, printedOn_cons]

/-- Either all jobs succeed, or there is a first one that does not. -/
theorem all_succeed_or_first_failure (launch : List String → Launch)
    (jobs : List (List String)) :
    (∀ job ∈ jobs, Succeeds launch job) ∨
      ∃ before failed after, jobs = before ++ failed :: after ∧
        (∀ job ∈ before, Succeeds launch job) ∧ ¬ Succeeds launch failed := by
  classical
  cases hfind : jobs.find? fun job => ¬ Succeeds launch job with
  | none =>
    left
    simpa using List.find?_eq_none.mp hfind
  | some failed =>
    right
    obtain ⟨hfailed, before, after, hjobs, hbefore⟩ := List.find?_eq_some_iff_append.mp hfind
    exact ⟨before, failed, after, hjobs, by simpa using hbefore, by simpa using hfailed⟩

end Jobs

/-! ## Responses -/

/-- What a response prints itself, apart from what the build tool prints on the jobs it is started
on. -/
def Response.Says (response : Response) (launch : List String → Launch) (text : String) : Prop :=
  response.stdout = text ++ printedOn launch response.started

/-- What comes of the jobs: they are started up to the first that does not succeed. This one is the
error, and without an error nothing is printed but what the build tool prints. -/
structure JobsDone (launch : List String → Launch) (jobs : List (List String))
    (response : Response) : Prop where
  started : UpToFailure launch jobs response.started
  stdout : response.stdout = printedOn launch response.started
  code : response.code = 0 ↔ ∀ job ∈ jobs, Succeeds launch job
  quiet : response.code = 0 → response.stderr = ""
  error : ∀ job ∈ response.started, ¬ Succeeds launch job → response.code = 1 ∧ response.stderr =
    "error: " ++ ("cargo " ++ shownJob job ++ ": " ++ (launch job).complaint) ++ "\n"

/-- **The jobs are started up to the first that does not succeed**, whatever the build tool does. -/
theorem jobsDone_performJobs (launch : List String → Launch) (jobs : List (List String)) :
    JobsDone launch jobs (performJobs launch jobs) := by
  rcases all_succeed_or_first_failure launch jobs with
    hall | ⟨before, failed, after, rfl, hbefore, hfailed⟩
  · rw [performJobs_of_succeed hall]
    exact ⟨.complete hall, rfl, iff_of_true rfl hall, fun _ => rfl,
      fun job hjob h => absurd (hall job hjob) h⟩
  · have hcode : (1 : UInt8) ≠ 0 := by decide
    rw [performJobs_of_failure hbefore hfailed]
    refine ⟨.failure rfl hbefore hfailed, rfl, iff_of_false hcode ?_, fun h => absurd h hcode, ?_⟩
    · intro hall
      exact hfailed (hall failed (by simp))
    · -- of the jobs that were started only the last did not succeed
      intro job hjob h
      rcases List.mem_append.mp hjob with hjob | hjob
      · exact absurd (hbefore job hjob) h
      · obtain rfl : job = failed := List.mem_singleton.mp hjob
        exact ⟨rfl, rfl⟩

theorem UpToFailure.ne_nil {launch : List String → Launch} {jobs started : List (List String)}
    (h : UpToFailure launch jobs started) (hjobs : jobs ≠ []) : started ≠ [] := by
  cases h with
  | complete h => exact hjobs
  | failure hjobs hbefore hfailed => simp

/-- The usage text in full. -/
theorem usage_eq : usage =
    "usage: cargo xtask <task>\n\ntasks:\n" ++
    "  ci      build, check formatting and lints, and test\n" ++
    "  checks  list the registered checks and the facts they need\n" := by
  decide +kernel

/-- The list of the checks in full. -/
theorem checkList_eq : checkList =
    "Socket Leak (SocketLeak)\n" ++ "  requires [Trees]\n" ++ "  provides []\n" := by
  decide +kernel

theorem empty_ne_checkList : "" ≠ checkList := by decide +kernel

theorem usage_ne_checkList : usage ≠ checkList := by decide +kernel

/-- A response says one text. -/
theorem Response.Says.iff_eq {response : Response} {launch : List String → Launch}
    {text other : String} (h : response.Says launch text) :
    response.Says launch other ↔ text = other := by
  unfold Says at h ⊢
  rw [h, String.append_left_inj]

/-- If no job is started, all that is printed is the response's own. -/
theorem Response.says_of_started_eq_nil (response : Response) (launch : List String → Launch)
    (h : response.started = []) : response.Says launch response.stdout := by
  rw [Says, h]
  exact String.append_empty.symm

/-- A response that starts no job and does not print the list of checks is as it should be for a
command line that is not the name of a task. -/
theorem Response.performs_no_task (response : Response) (launch : List String → Launch)
    {arguments : List ByteArray} (hstarted : response.started = [])
    (hstdout : response.stdout ≠ checkList)
    (hne : ∀ task : Task, arguments ≠ [task.name.toUTF8]) :
    (response.started ≠ [] ↔ arguments = ["ci".toUTF8]) ∧
      (response.Says launch checkList ↔ arguments = ["checks".toUTF8]) := by
  have hsays := response.says_of_started_eq_nil launch hstarted
  constructor
  · exact iff_of_false (fun hsome => hsome hstarted) (hne .ci)
  · exact iff_of_false (mt hsays.iff_eq.mp hstdout) (hne .checks)

/-- **A task is performed only when it is named, and nothing else is**, whatever lawful reader takes
the arguments. The build tool is started exactly by the command line `ci`, and the checks are listed
exactly by `checks`. The usage text, where it is asked for, is all that there is; every other command
line is refused with an error. The jobs are started up to the first that does not succeed. -/
theorem task_is_performed_only_when_named {reader : ArgumentReader} (hreader : reader.Lawful)
    (launch : List String → Launch) (arguments : List ByteArray) :
    let response := respond reader launch arguments
    (response.started ≠ [] ↔ arguments = ["ci".toUTF8]) ∧
    (response.Says launch
        ("Socket Leak (SocketLeak)\n" ++ "  requires [Trees]\n" ++ "  provides []\n") ↔
      arguments = ["checks".toUTF8]) ∧
    (AsksForUsage arguments → response.started = [] ∧ response.stderr = "" ∧ response.code = 0 ∧
      response.stdout =
        "usage: cargo xtask <task>\n\ntasks:\n" ++
        "  ci      build, check formatting and lints, and test\n" ++
        "  checks  list the registered checks and the facts they need\n") ∧
    (¬ AsksForUsage arguments → arguments ≠ ["ci".toUTF8] → arguments ≠ ["checks".toUTF8] →
      response.stdout = "" ∧ response.code = 1 ∧
        ∃ error, Refused reader arguments error ∧ response = Response.ofError error) ∧
    (response.started ≠ [] → JobsDone launch
      [["build", "--locked"], ["fmt", "--", "--check"], ["clippy", "--locked"],
        ["clippy", "--locked", "--tests"], ["test", "--locked"]] response) := by
  have hread := reading_ofArguments hreader arguments
  rw [← usage_eq, ← checkList_eq]
  unfold respond
  generalize Request.ofArguments reader arguments = reading at hread
  cases hread with
  | usage h =>
    obtain ⟨hci, hchecks⟩ :=
      Response.performs_no_task { stdout := usage } launch rfl usage_ne_checkList h.ne_task
    exact ⟨hci, hchecks, fun _ => ⟨rfl, rfl, rfl, rfl⟩, fun hnot => absurd h hnot,
      fun hne => absurd rfl hne⟩
  | @task task hnot h =>
    cases task with
    | ci =>
      have hdone := jobsDone_performJobs launch jobs
      -- all that is printed comes from the build tool, even if that looks like the list of checks
      have hsays : (performJobs launch jobs).Says launch "" := by
        rw [Response.Says, String.empty_append]
        exact hdone.stdout
      refine ⟨?_, ?_, fun husage => absurd husage hnot, fun _ hci => absurd h hci, fun _ => hdone⟩
      · exact iff_of_true (hdone.started.ne_nil (by decide)) h
      · exact iff_of_false (mt hsays.iff_eq.mp empty_ne_checkList)
          fun hchecks => ci_ne_checks (h.symm.trans hchecks)
    | checks =>
      have hsays := Response.says_of_started_eq_nil { stdout := checkList } launch rfl
      refine ⟨?_, iff_of_true hsays h, fun husage => absurd husage hnot,
        fun _ _ hchecks => absurd h hchecks, fun hne => absurd rfl hne⟩
      exact iff_of_false (fun hne => hne rfl) fun hci => ci_ne_checks (hci.symm.trans h)
  | @refused error hnot h =>
    obtain ⟨hci, hchecks⟩ :=
      Response.performs_no_task (.ofError error) launch rfl empty_ne_checkList h.ne_task
    exact ⟨hci, hchecks, fun husage => absurd husage hnot, fun _ _ _ => ⟨rfl, rfl, error, h, rfl⟩,
      fun hne => absurd rfl hne⟩

/-- A build tool that finds fault with the tests, and with nothing else. -/
def lintsFail (job : List String) : Launch :=
  if job = ["clippy", "--locked", "--tests"] then .exited 101 "warning\n" else .exited 0 ""

theorem listed_performs_ci_when_named :
    ArgumentReader.listed.Lawful ∧
      (respond .listed lintsFail ["ci".toUTF8]).started =
        [["build", "--locked"], ["fmt", "--", "--check"], ["clippy", "--locked"],
          ["clippy", "--locked", "--tests"]] ∧
      (respond .listed lintsFail ["ci".toUTF8]).stderr =
        "error: cargo clippy --locked --tests: exit status: 101\n" ∧
      AsksForUsage ["ci".toUTF8, "--help".toUTF8] ∧
      (respond .listed lintsFail ["ci".toUTF8, "--help".toUTF8]).stdout =
        "usage: cargo xtask <task>\n\ntasks:\n" ++
        "  ci      build, check formatting and lints, and test\n" ++
        "  checks  list the registered checks and the facts they need\n" ∧
      (respond .listed lintsFail [⟨#[0xff]⟩, "ci".toUTF8]).started = [] := by
  have hlawful := ArgumentReader.lawful_listed
  have hstarted : (respond .listed lintsFail ["ci".toUTF8]).started =
      [["build", "--locked"], ["fmt", "--", "--check"], ["clippy", "--locked"],
        ["clippy", "--locked", "--tests"]] := by
    decide +kernel
  have hfails : ¬ Succeeds lintsFail ["clippy", "--locked", "--tests"] := by
    rintro ⟨printed, h⟩
    exact absurd (Launch.exited.inj h).1 (by decide)
  have hhelp : AsksForUsage ["ci".toUTF8, "--help".toUTF8] := .flag (.inr (by simp))
  obtain ⟨hci, -, -, -, hjobs⟩ :=
    task_is_performed_only_when_named hlawful lintsFail ["ci".toUTF8]
  obtain ⟨-, -, husage, -, -⟩ :=
    task_is_performed_only_when_named hlawful lintsFail ["ci".toUTF8, "--help".toUTF8]
  obtain ⟨hbytes, -, -, -, -⟩ :=
    task_is_performed_only_when_named hlawful lintsFail [⟨#[0xff]⟩, "ci".toUTF8]
  refine ⟨hlawful, hstarted, ?_, hhelp, (husage hhelp).2.2.2, ?_⟩
  · have hlast : ["clippy", "--locked", "--tests"] ∈
        (respond .listed lintsFail ["ci".toUTF8]).started := by
      rw [hstarted]
      decide
    exact ((hjobs (hci.mpr rfl)).error _ hlast hfails).2
  · exact Decidable.of_not_not (mt hbytes.mp (by simp))

end ScriptLint
