import ScriptLint.Report

/-!
# How a report is displayed

A report is displayed as a header, with the verdict and the title of the check, and below it the
texts of the lines that are severe enough. Whether there is something to show below the header is
read off the texts joined by newlines. The joined text is empty if there is no text, and also if
there is just one and it is empty: joining does not tell the two apart. So a lone empty text is left
out, and every other list of texts is shown as it is, each text on a line of its own.

## Main definitions

* `Report.header`: the first line of a displayed report
* `Report.asLines`: texts on lines of their own

## Main results

* `intercalate_newline_eq_empty_iff`: when joined texts are empty
* `display_shows_kept_texts`: what a displayed report shows
* `lone_empty_line_is_left_out`: a kept line of which nothing is displayed
-/

namespace ScriptLint.Report

/-- The first line of a displayed report. -/
def header (report : Report) (name : String) : String :=
  "[" ++ report.verdict.tag ++ "] " ++ Text.title name ++ "\n"

/-- Texts on lines of their own, each with a newline behind it. -/
def asLines (texts : List String) : String :=
  String.join (texts.map (· ++ "\n"))

/-! ## Joined texts -/

/-- Texts on lines of their own, if there are any, are the texts joined by newlines with a newline
at the end. -/
theorem asLines_eq (texts : List String) :
    asLines texts = if texts = [] then "" else "\n".intercalate texts ++ "\n" := by
  induction texts with
  | nil => rfl
  | cons text rest ih =>
    rw [if_neg (List.cons_ne_nil text rest)]
    cases rest with
    | nil => simp [asLines]
    | cons next rest =>
      rw [if_neg (List.cons_ne_nil next rest)] at ih
      rw [String.intercalate_cons_cons, String.append_assoc, ← ih]
      simp [asLines]

/-- **When joined texts are empty**: there is no text, or a lone empty one. -/
theorem intercalate_newline_eq_empty_iff (texts : List String) :
    "\n".intercalate texts = "" ↔ texts = [] ∨ texts = [""] := by
  match texts with
  | [] => simp
  | [text] => simp
  | first :: second :: rest =>
    -- two texts have a newline between them
    rw [String.intercalate_cons_cons]
    simp

/-! ## Displayed reports -/

/-- **What is displayed below the header**: all kept texts, but not a lone empty one. -/
theorem display_eq (report : Report) (name : String) (level : Severity) :
    report.display name level =
      report.header name ++
        asLines (if report.kept level = [""] then [] else report.kept level) := by
  rw [asLines_eq]
  unfold display filtered
  simp only [intercalate_newline_eq_empty_iff]
  by_cases hlone : report.kept level = [""]
  · rw [if_pos (.inr hlone), if_pos hlone, if_pos rfl]
    rfl
  · rw [if_neg hlone]
    simp only [hlone, or_false]
    rfl

/-- **A displayed report shows the kept texts**, each on a line of its own. It is the header and, if
a line was kept, the kept texts joined by newlines with a newline at the end, unless there is only
one such text and it is empty. -/
theorem display_shows_kept_texts (report : Report) (name : String) (level : Severity) :
    report.display name level =
        report.header name ++
          asLines (if report.kept level = [""] then [] else report.kept level) ∧
      (report.display name level =
          report.header name ++
            (if report.kept level = [] then ""
              else "\n".intercalate (report.kept level) ++ "\n") ↔
        report.kept level ≠ [""]) := by
  refine ⟨display_eq report name level, ?_⟩
  rw [display_eq, ← asLines_eq, String.append_right_inj]
  by_cases hlone : report.kept level = [""]
  · rw [if_pos hlone, hlone]
    decide +kernel
  · rw [if_neg hlone]
    exact iff_of_true rfl hlone

/-- A report of one line, which has no text. -/
def blankReport : Report where
  lines := [⟨.info, ""⟩]

/-- **A lone empty line is left out**: a line is kept, and nothing is displayed of it. -/
theorem lone_empty_line_is_left_out :
    blankReport.kept .info = [""] ∧
      blankReport.display "probe" .info = "[VOID] probe\n" ∧
      blankReport.display "probe" .info ≠
        blankReport.header "probe" ++ ("\n".intercalate (blankReport.kept .info) ++ "\n") := by
  refine ⟨rfl, ?_, ?_⟩
  · decide +kernel
  · decide +kernel

-- the same line reported twice is shown twice
example : (blankReport.add ⟨.info, ""⟩).display "probe" .info = "[VOID] probe\n\n\n" := by
  decide +kernel

end ScriptLint.Report
