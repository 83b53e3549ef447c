import SymbolicLogic.Rendering.Expression
import SymbolicLogic.Rendering.Screen

/-!
# Reports

A report explains a failure to a reader: a short title, and a body of styled
runs in which expressions keep their own styles.
-/

namespace SymbolicLogic

/-- A title and a body of styled runs. -/
structure Report where
  title : String
  fragments : List TextRun
  deriving DecidableEq, Repr

namespace Report

/-- Words of the report itself. -/
def words (text : String) : List TextRun :=
  [⟨.plain, text⟩]

/-- Text quoted from the input. -/
def quoted (text : String) : List TextRun :=
  [⟨.term, text⟩]

/-- The body without styles. -/
def body (report : Report) : String :=
  TextRun.plainText report.fragments

/-- The report on one line, without styles. -/
def text (report : Report) : String :=
  report.title ++ ": " ++ report.body

/-- The report on a terminal, with a bold title and a line end. -/
def commands (report : Report) : List Command :=
  [.setPaint { bold := true }, .write report.title, .reset, .write ": "] ++
    Command.ofRuns report.fragments ++ [.write "\n"]

/-- A terminal shows the text of the report, and a line end. -/
theorem visibleText_commands (report : Report) :
    Command.visibleText report.commands = report.text ++ "\n" := by
  simp [commands, text, body, Command.visibleText, String.append_assoc]

end Report

/-- Failures that can be put into words, both as a plain message and as a
report. -/
class Reportable (ε : Type) where
  message : ε -> String
  report : ε -> Report

export Reportable (message report)

end SymbolicLogic
