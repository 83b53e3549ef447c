import SymbolicLogic.Rendering.Run

/-!
# Painting on a terminal

A terminal takes commands: set the colours, reset them, write text. Pieces of
an expression are each painted and reset on their own, with bare spaces written
as they are; a list of runs is painted one after the other and reset once.
-/

namespace SymbolicLogic

inductive Color
  | blue
  | green
  | white
  | yellow
  | red
  | magenta
  | cyan
  deriving DecidableEq, Repr

/-- The name of a colour. -/
def Color.name : Color -> String
  | .blue => "Blue"
  | .green => "Green"
  | .white => "White"
  | .yellow => "Yellow"
  | .red => "Red"
  | .magenta => "Magenta"
  | .cyan => "Cyan"

/-- Colour and weight of text. -/
structure Paint where
  foreground : Option Color := none
  bold : Bool := false
  dimmed : Bool := false
  italic : Bool := false
  deriving DecidableEq, Repr

/-- The colours of brackets, from the outermost inwards. -/
def Paint.bracketColors : List Color :=
  [.blue, .green, .white, .yellow, .red, .magenta]

/-- How a style looks. -/
def Style.paint : Style -> Paint
  | .plain => {}
  | .punctuation => { dimmed := true }
  | .bracket shade =>
      { foreground := Paint.bracketColors[shade.val]?, dimmed := true }
  | .operator => { foreground := some .yellow, bold := true }
  | .letter | .relation => { foreground := some .green, bold := true }
  | .term => { foreground := some .cyan }
  | .metavariable => { foreground := some .magenta, italic := true }
  | .superscript | .subscript => { foreground := some .cyan, italic := true }

/-- What can be sent to a terminal. -/
inductive Command
  | setPaint (paint : Paint)
  | reset
  | write (text : String)
  deriving DecidableEq, Repr

namespace Command

/-- What stays to be seen when colours are ignored. -/
def visibleText : List Command -> String
  | [] => ""
  | .write text :: commands => text ++ visibleText commands
  | _ :: commands => visibleText commands

@[simp] theorem visibleText_append (left right : List Command) :
    visibleText (left ++ right) = visibleText left ++ visibleText right := by
  fun_induction visibleText left <;>
    simp_all [visibleText, String.append_assoc]

/-- Put a command in front, joining writes and leaving out empty ones. -/
def push (command : Command) (commands : List Command) : List Command :=
  match command with
  | .write text =>
      if text = "" then commands
      else
        match commands with
        | .write next :: rest => .write (text ++ next) :: rest
        | _ => .write text :: commands
  | _ => command :: commands

/-- The commands with neighbouring writes joined and empty ones left out. -/
def joined (commands : List Command) : List Command :=
  commands.foldr push []

/-- Paint one piece: bare text as it is, styled text in its colours. -/
def ofPiece (piece : TextRun) : List Command :=
  if piece.style = .plain then [.write piece.text]
  else [.setPaint piece.style.paint, .write piece.text, .reset]

/-- Paint pieces one by one. -/
def ofPieces (pieces : List TextRun) : List Command :=
  pieces.flatMap ofPiece

/-- Paint runs one after the other, and reset at the end. -/
def ofRuns (runs : List TextRun) : List Command :=
  runs.flatMap (fun run => [.setPaint run.style.paint, .write run.text]) ++
    [.reset]

/-- Painting pieces shows their text. -/
@[simp] theorem visibleText_ofPieces (pieces : List TextRun) :
    visibleText (ofPieces pieces) = TextRun.plainText pieces := by
  induction pieces with
  | nil => rfl
  | cons piece pieces ih =>
      rw [ofPieces, List.flatMap_cons, visibleText_append, ← ofPieces, ih,
        TextRun.plainText_cons]
      unfold ofPiece
      split <;> simp [visibleText]

/-- Painting runs shows their text. -/
@[simp] theorem visibleText_ofRuns (runs : List TextRun) :
    visibleText (ofRuns runs) = TextRun.plainText runs := by
  unfold ofRuns
  induction runs with
  | nil => simp [visibleText]
  | cons run runs ih =>
      simp [visibleText] at ih ⊢
      exact ih

end Command
end SymbolicLogic
