import SymbolicLogic.Rendering.Expression
import SymbolicLogic.Rendering.Screen

/-!
# Documents and sinks

The pieces of an expression make up a document. It is read once from left to
right, and signals where a style begins, where it ends, and what is written. A
sink makes of these signals what it is for: a text, a list of runs, or commands
for a terminal. Styled parts may stand inside others; what is written has the
style that has begun last and has not ended.
-/

namespace SymbolicLogic

/-- Text with styled parts. -/
inductive Document
  | empty
  | bare (text : String)
  | append (left right : Document)
  | styled (style : Style) (body : Document)
  deriving DecidableEq, Repr

/-- What a document tells a sink. -/
inductive Signal
  | enter (style : Style)
  | leave
  | write (text : String)
  deriving DecidableEq, Repr

namespace Document

/-- The signals of a document, in order. -/
def signals : Document -> List Signal
  | .empty => []
  | .bare text => [.write text]
  | .append left right => left.signals ++ right.signals
  | .styled style body => .enter style :: body.signals ++ [.leave]

/-- A piece on its own: bare text, or text in its style. -/
def ofPiece (piece : TextRun) : Document :=
  if piece.style = .plain then .bare piece.text
  else .styled piece.style (.bare piece.text)

/-- One piece after the other. -/
def ofPieces (pieces : List TextRun) : Document :=
  pieces.foldr (fun piece document => .append (ofPiece piece) document) .empty

end Document

/-- The document of an expression. -/
def Expression.document (expression : Expression) : Document :=
  .ofPieces expression.pieces

/-! ## Plain text -/

/-- What a signal adds to a text. -/
def Signal.text : Signal -> String
  | .write text => text
  | _ => ""

/-- The text of a document. -/
def Document.plainText (document : Document) : String :=
  document.signals.foldl (fun text signal => text ++ signal.text) ""

/-! ## Commands for a terminal -/

/-- The command for a signal. The end of a style resets the colours. -/
def Signal.command : Signal -> Command
  | .enter style => .setPaint style.paint
  | .leave => .reset
  | .write text => .write text

/-- The document on a terminal. -/
def Document.commands (document : Document) : List Command :=
  document.signals.map Signal.command

/-! ## Runs -/

/-- Put a run behind other runs, joining it to the last one if their styles agree
and leaving it out if it is empty. -/
def TextRun.extend (runs : List TextRun) (run : TextRun) : List TextRun :=
  if run.text = "" then runs
  else
    match runs.getLast? with
    | none => [run]
    | some last =>
        if last.style = run.style then
          runs.dropLast ++ [{ last with text := last.text ++ run.text }]
        else runs ++ [run]

/-- The runs so far, and the styles that have begun and have not ended, the last
one first. -/
structure Collector where
  runs : List TextRun
  styles : List Style
  deriving DecidableEq, Repr

namespace Collector

/-- The style of what is written. -/
def style (collector : Collector) : Style :=
  collector.styles.headD .plain

/-- Take one signal. -/
def receive (collector : Collector) : Signal -> Collector
  | .enter style => { collector with styles := style :: collector.styles }
  | .leave => { collector with styles := collector.styles.tail }
  | .write text =>
      { collector with
        runs := TextRun.extend collector.runs ⟨collector.style, text⟩ }

/-- Take signals, one after the other. -/
def receiveAll (collector : Collector) (signals : List Signal) : Collector :=
  signals.foldl receive collector

end Collector

/-- The runs of a document. -/
def Document.runs (document : Document) : List TextRun :=
  (Collector.receiveAll ⟨[], []⟩ document.signals).runs

end SymbolicLogic
