import ScriptLint.Main
import ScriptLint.Script.Construction
import ScriptLint.Proofs.Schedule.History
import ScriptLint.Proofs.Schedule.Nesting
import ScriptLint.Proofs.Leak.Unfolding
import ScriptLint.Proofs.Schedule.Delivery
import ScriptLint.Proofs.Schedule.Ending
import ScriptLint.Proofs.Schedule.Stages
import ScriptLint.Proofs.Schedule.TestMode
import ScriptLint.Proofs.Leak.Paths
import ScriptLint.Proofs.Leak.Warnings
import ScriptLint.Proofs.Inspection
import ScriptLint.Proofs.Leak.Strict
import ScriptLint.Proofs.Leak.Openings
import ScriptLint.Proofs.Leak.Survival
import ScriptLint.Proofs.Leak.Releases
import ScriptLint.Proofs.Schedule.Namesakes
import ScriptLint.Proofs.Schedule.Prerequisites
import ScriptLint.Proofs.Schedule.Resumption
import ScriptLint.Proofs.Leak.Files
import ScriptLint.Proofs.Leak.Blindness
import ScriptLint.Proofs.Text.Title
import ScriptLint.Proofs.Check.Lookup
import ScriptLint.Proofs.Check.Display
import ScriptLint.Proofs.Text.Stem
import ScriptLint.Proofs.Script.Shapes
import ScriptLint.Proofs.Schedule.Batches
import ScriptLint.Proofs.CommandLine
import ScriptLint.Proofs.Text.Separated
import ScriptLint.Proofs.Leak.Listing
import ScriptLint.Proofs.Check.Table
