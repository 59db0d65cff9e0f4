import ScriptLint.Proofs.Leak.Unfolding

/-!
# What the check for leaks leaves behind

The check for leaks reads the files and writes its report. It files no fact, so all that is known
stays as it is. To the report it adds one warning for each finding, file after file, and its verdict
tells whether there was any.

## Main definitions

* `Body.KeepsFacts`: bodies that leave the facts as they are
* `leakLine`: the line that warns of a set of names
* `Script.warnings`: the lines that a script adds to a report

## Main results

* `keepsFacts_socketLeak`: the check leaves the facts as they are
* `Report.lines_foldl_warnOf`, `Report.verdict_foldl_warnOf`: lines and verdict after warnings
* `lines_auditFile`: the lines that an audit adds
* `report_socketLeak`: the report of the check, by the findings in all files
* `lines_socketLeak`, `verdict_socketLeak`: the lines it adds, and its verdict
-/

namespace ScriptLint

/-! ## Facts -/

namespace Body

variable {β γ : Type}

/-- A body that leaves the facts as they are, whatever they and the report are. -/
def KeepsFacts (body : Body β) : Prop :=
  ∀ report facts, (body.run report facts).facts = facts

theorem KeepsFacts.bind {body : Body β} {next : β → Body γ} (h : body.KeepsFacts)
    (hnext : ∀ value, (next value).KeepsFacts) : (body >>= next).KeepsFacts := by
  intro report facts
  rw [run_bind]
  exact (hnext _ _ _).trans (h report facts)

theorem KeepsFacts.forM {body : β → Body Unit} (h : ∀ value, (body value).KeepsFacts)
    (values : List β) : (values.forM body).KeepsFacts := by
  induction values with
  | nil => exact fun _ _ => rfl
  | cons value rest ih => exact (h value).bind fun _ => ih

theorem keepsFacts_note (event : Event) : (note event).KeepsFacts :=
  fun _ _ => rfl

/-- Reading the files hands back those among the facts, and at most takes a note. -/
theorem run_files (report : Report) (facts : Facts) :
    files.run report facts =
      { result := facts.files, report, facts,
        journal := if facts.scriptsMisfiled then [.misfiled] else [] } := by
  unfold files
  rw [run_bind]
  change (if facts.scriptsMisfiled then _ else _ : Body (List File)).run report facts = _
  split
  · rfl
  · rfl

end Body

theorem keepsFacts_auditFile (file : File) : (auditFile file).KeepsFacts := by
  refine .bind (Body.keepsFacts_note _) fun _ => .bind (.forM Body.keepsFacts_note _) fun _ => ?_
  exact .forM (fun _ _ _ => rfl) _

/-- **The check for leaks leaves the facts as they are.** -/
theorem keepsFacts_socketLeak : socketLeak.body.KeepsFacts := by
  refine .bind (fun _ _ => rfl) fun _ => .bind ?_ fun files => ?_
  · intro report facts
    rw [Body.run_files]
  · exact .forM keepsFacts_auditFile files

/-! ## Warnings -/

/-- The line that warns of a set of names. -/
def leakLine (names : NameSet) : Line :=
  ⟨.warn, leakWarning names⟩

namespace Report

/-- Warnings are added after the lines that are there, in order. -/
theorem lines_foldl_warnOf (findings : List NameSet) (report : Report) :
    (findings.foldl warnOf report).lines = report.lines ++ findings.map leakLine := by
  induction findings generalizing report with
  | nil => simp
  | cons names rest ih =>
    rw [List.foldl_cons, ih, List.map_cons, List.append_cons]
    rfl

/-- The verdict is a warning as soon as there is one. -/
theorem verdict_foldl_warnOf (findings : List NameSet) (report : Report) :
    (findings.foldl warnOf report).verdict = if findings = [] then report.verdict else .warn := by
  induction findings generalizing report with
  | nil => rfl
  | cons names rest ih =>
    have hwarn : (report.warnOf names).verdict = .warn := rfl
    rw [List.foldl_cons, ih, hwarn, ite_self, if_neg (List.cons_ne_nil names rest)]

end Report

/-- **The lines that an audit adds** warn of the findings, in order. -/
theorem lines_auditFile (file : File) (report : Report) (facts : Facts) :
    ((auditFile file).run report facts).report.lines =
      report.lines ++ file.script.findings.map leakLine := by
  rw [report_auditFile, Report.lines_foldl_warnOf]

/-- **The report of the check for leaks**: a pass, and then a warning of each finding, file after
file. -/
theorem report_socketLeak (report : Report) (facts : Facts) :
    (socketLeak.body.run report facts).report =
      (facts.files.flatMap (·.script.findings)).foldl Report.warnOf (report.conclude .pass) := by
  change ((Body.conclude .pass >>= fun _ => Body.files >>= fun files =>
    files.forM auditFile : Body Unit).run report facts).report = _
  have hpass : (Body.conclude .pass).run report facts =
      { result := (), report := report.conclude .pass, facts } := rfl
  rw [Body.report_bind, hpass, Body.report_bind, Body.run_files,
    Body.report_forM report_auditFile, List.foldl_flatMap]

/-- The lines that a script adds to a report: a warning of each finding. -/
def Script.warnings (script : Script) : List Line :=
  script.findings.map leakLine

theorem flatMap_warnings (files : List File) :
    files.flatMap (·.script.warnings) = (files.flatMap (·.script.findings)).map leakLine := by
  rw [List.map_flatMap]
  rfl

/-- The check for leaks adds the lines of each script, file after file. -/
theorem lines_socketLeak (report : Report) (facts : Facts) :
    (socketLeak.body.run report facts).report.lines =
      report.lines ++ facts.files.flatMap (·.script.warnings) := by
  rw [report_socketLeak, Report.lines_foldl_warnOf, flatMap_warnings]
  rfl

/-- The check for leaks warns if some script adds a line, and passes otherwise. -/
theorem verdict_socketLeak (report : Report) (facts : Facts) :
    (socketLeak.body.run report facts).report.verdict =
      if facts.files.flatMap (·.script.warnings) = [] then .pass else .warn := by
  simp only [report_socketLeak, Report.verdict_foldl_warnOf, flatMap_warnings, List.map_eq_nil_iff]
  rfl

end ScriptLint
