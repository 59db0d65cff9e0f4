import ScriptLint.Proofs.Leak.Openings

/-!
# Files are audited one by one

The check for leaks writes to its report in many places: at each point where a script may be left,
deep inside of blocks and conditionals, and at the end of each file. Its verdict is set in the same
places. Here the report is taken apart again. To the lines that were there, each file adds lines of
its own, which depend on its script and on nothing else: not on its name, not on the files before
it, and not on what the report said before. So the lines for some files followed by others are the
lines for the first and then the lines for the second.

The verdict tells whether there is such a line, whatever it was before. And a file adds no line just
if each of its bodies is quiet, that is, if the walk of it flushes no name and holds none in the
end. This is not quite the definition: an audit puts the walks of all bodies together before it
looks at what is held.

## Main definitions

* `Walk.Quiet`: walks that flush no name and hold none in the end

## Main results

* `Script.exists_name_of_mem_warnings`: every line lists a name
* `Script.warnings_eq_nil_iff`: a script adds no line if all its bodies are quiet, and only then
* `socketLeak_warns_file_by_file`: what the check does to a report
-/

namespace ScriptLint

/-- The files among the facts are those that were filed last. -/
theorem Facts.files_insert_scripts (facts : Facts) (files : List File) :
    (facts.insert .scripts (.scripts files)).files = files := by
  rw [Facts.files, Facts.get?_insert_self]

theorem NameSet.exists_mem_of_ne_empty {names : NameSet} (h : names ≠ ∅) :
    ∃ name, name ∈ names := by
  by_contra hnone
  apply h
  ext name
  exact ⟨fun hname => absurd ⟨name, hname⟩ hnone, fun hname => absurd hname (by simp)⟩

/-- A walk that flushes no name and holds none in the end. -/
structure Walk.Quiet (walk : Walk) : Prop where
  held : walk.held = ∅
  flushes : ∀ names ∈ walk.flushes, names = ∅

namespace Script

variable {script : Script}

/-! ## The lines of a script -/

/-- A finding is a set that is flushed or held in the end, and it has a name. -/
theorem mem_findings {names : NameSet} :
    names ∈ script.findings ↔
      (names ∈ script.audit.flushes ∨ names = script.audit.held) ∧ names ≠ ∅ := by
  simp [findings, ← NameSet.isEmpty_iff, or_and_right]

/-- Every line that a script adds is a warning that lists at least one name. The names are listed in
order, and a handle without a name as `<unassigned>`. -/
theorem exists_name_of_mem_warnings {line : Line} (h : line ∈ script.warnings) :
    line.severity = .warn ∧
      ∃ names : NameSet, (∃ name, name ∈ names) ∧ line.text = leakWarning names ∧
        line.text = "Possibly leaked socket handle(s): " ++ String.intercalate ", "
          (names.toList.map fun name => if name = "" then "<unassigned>" else name) := by
  obtain ⟨names, hnames, rfl⟩ := List.mem_map.mp h
  have hne : names ≠ ∅ := (mem_findings.mp hnames).2
  exact ⟨rfl, names, NameSet.exists_mem_of_ne_empty hne, rfl, rfl⟩

/-! ## Quiet bodies -/

/-- Nothing is held in the end if no body holds anything. -/
theorem held_audit_eq_empty_iff :
    script.audit.held = ∅ ↔
      ∀ body ∈ script.bodies, (Walk.sequence script.walk body ∅).held = ∅ := by
  constructor
  · intro hempty body hbody
    ext name
    refine ⟨fun hname => ?_, fun hname => absurd hname (by simp)⟩
    rw [← hempty]
    exact mem_held_audit.mpr ⟨body, hbody, hname⟩
  · intro hbodies
    ext name
    refine ⟨fun hname => ?_, fun hname => absurd hname (by simp)⟩
    obtain ⟨body, hbody, hheld⟩ := mem_held_audit.mp hname
    rwa [hbodies body hbody] at hheld

/-- A script adds no line if there is nothing in what an audit holds and flushes. -/
theorem warnings_eq_nil_iff_audit :
    script.warnings = [] ↔
      script.audit.held = ∅ ∧ ∀ names ∈ script.audit.flushes, names = ∅ := by
  rw [warnings, List.map_eq_nil_iff, List.eq_nil_iff_forall_not_mem]
  simp only [mem_findings, not_and, not_not]
  constructor
  · intro h
    exact ⟨h _ (Or.inr rfl), fun names hnames => h names (Or.inl hnames)⟩
  · rintro ⟨hheld, hflushes⟩ names (hnames | rfl)
    · exact hflushes names hnames
    · exact hheld

/-- **A script adds no line if all its bodies are quiet, and only then.** -/
theorem warnings_eq_nil_iff :
    script.warnings = [] ↔ ∀ body ∈ script.bodies, (Walk.sequence script.walk body ∅).Quiet := by
  rw [warnings_eq_nil_iff_audit, held_audit_eq_empty_iff, flushes_audit]
  constructor
  · rintro ⟨hheld, hflushes⟩ body hbody
    refine ⟨hheld body hbody, fun names hnames => ?_⟩
    exact hflushes names (List.mem_flatMap.mpr ⟨body, hbody, hnames⟩)
  · intro hquiet
    refine ⟨fun body hbody => (hquiet body hbody).held, fun names hnames => ?_⟩
    obtain ⟨body, hbody, hflushed⟩ := List.mem_flatMap.mp hnames
    exact (hquiet body hbody).flushes names hflushed

end Script

/-! ## The report of the check -/

/-- **Files are audited one by one.** Whatever the facts are, and whatever verdict and lines the
report has, the check for leaks leaves the facts and those lines as they are, and adds the lines of
each script, file after file. Each added line is a warning whose text lists at least one name, and
the verdict is a warning if a line was added and a pass otherwise. The lines that are added for some
files followed by others are those that are added for the first alone, and then those for the
second. A script adds no line if the walk of each of its bodies flushes no name and holds none in
the end, and only then. -/
theorem socketLeak_warns_file_by_file (report : Report) (facts : Facts) :
    (socketLeak.body.run report facts).facts = facts ∧
    (∃ added, added = facts.files.flatMap (·.script.warnings) ∧
      (socketLeak.body.run report facts).report.lines = report.lines ++ added ∧
      (socketLeak.body.run report facts).report.verdict = (if added = [] then .pass else .warn) ∧
      ∀ line ∈ added, line.severity = .warn ∧
        ∃ names : NameSet, (∃ name, name ∈ names) ∧ line.text = leakWarning names ∧
          line.text = "Possibly leaked socket handle(s): " ++ String.intercalate ", "
            (names.toList.map fun name => if name = "" then "<unassigned>" else name)) ∧
    (∀ first second : List File,
      (socketLeak.body.run report
        (facts.insert .scripts (.scripts (first ++ second)))).report.lines =
        report.lines ++ (socketLeak.body.run {} (.ofFiles first)).report.lines ++
          (socketLeak.body.run {} (.ofFiles second)).report.lines) ∧
    ∀ script : Script, script.warnings = [] ↔
      ∀ body ∈ script.bodies, (Walk.sequence script.walk body ∅).Quiet := by
  refine ⟨keepsFacts_socketLeak report facts, ⟨_, rfl, ?_, ?_, ?_⟩, ?_, ?_⟩
  · exact lines_socketLeak report facts
  · exact verdict_socketLeak report facts
  · intro line hline
    obtain ⟨file, -, hwarning⟩ := List.mem_flatMap.mp hline
    exact Script.exists_name_of_mem_warnings hwarning
  · intro first second
    simp only [lines_socketLeak, Facts.ofFiles, Facts.files_insert_scripts,
      List.flatMap_append, List.nil_append, List.append_assoc]
  · intro script
    exact Script.warnings_eq_nil_iff

end ScriptLint
