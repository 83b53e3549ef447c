import SymbolicLogic.Header.Item
import SymbolicLogic.Language.Basic
import SymbolicLogic.Rendering.Report
import SymbolicLogic.Text.Blank

/-!
# Cutting text into header items

The text of a formula is read once, character by character.

* An operator is an item of its own; a binary one has a space on each side.
* Opening brackets start an item. It ends with the operator after them, as in
  `(~`, or goes on as a run.
* A run takes everything that is neither a blank nor an operator, whole bracket
  groups with the operators inside, closing brackets, and what follows them
  directly. Once a run has met a binder, it takes unary operators too.
* Blanks inside a run are kept when the run goes on after them.
* A closing bracket with nothing to close is an error.
-/

namespace SymbolicLogic

/-- The notation by which text is cut. -/
structure Segmentation where
  operators : OperatorSet
  brackets : List Brackets
  deriving DecidableEq, Repr

/-- The part a character plays when text is cut. -/
inductive GlyphClass
  | space
  | opening
  | closing
  | operator
  | relation
  deriving DecidableEq, Repr

/-- A closing bracket with nothing to close. -/
structure HeaderError where
  text : String
  position : Nat
  deriving DecidableEq, Repr

instance : Reportable HeaderError where
  message error :=
    "unexpected close bracket at position " ++ toString error.position ++
      " in `" ++ error.text ++ "`"
  report error :=
    { title := "Unbalanced brackets"
      fragments :=
        Report.words
            ("unexpected close bracket at position " ++
              toString error.position ++ " in ") ++
          Report.quoted error.text }

namespace Segmentation

/-- The part of a character; blanks come first, then opening, then closing
brackets, then operators. -/
def classOf (cutting : Segmentation) (c : Char) : GlyphClass :=
  if Text.isBlank c then .space
  else if cutting.brackets.any fun pair => pair.opening = c then .opening
  else if cutting.brackets.any fun pair => pair.closing = c then .closing
  else if cutting.operators.contains c then .operator
  else .relation

/-- The class of the first character that is not blank. -/
def nextSolid? (cutting : Segmentation) (text : List Char) : Option GlyphClass :=
  (text.find? fun c => cutting.classOf c != .space).map cutting.classOf

/-- What has been read of the item at hand. -/
inductive State
  | between
  /-- Opening brackets so far. -/
  | opened (begun : List TextRun)
  /-- A run, with the brackets opened inside it, and whether it met a
  binder. -/
  | running (begun : List TextRun) (inner : Nat) (bound : Bool)

/-- One character of an item. -/
def glyph (style : Style) (c : Char) : TextRun :=
  ⟨style, String.singleton c⟩

/-- An item of values made of single characters. -/
def itemOf (glyphs : List TextRun) : HeaderItem :=
  .value (TextRun.merge glyphs)

/-- The item of an operator on its own. -/
def operatorItem (cutting : Segmentation) (c : Char) : HeaderItem :=
  if cutting.operators.isBinary c then
    itemOf [glyph .plain ' ', glyph .operator c, glyph .plain ' ']
  else itemOf [glyph .operator c]

/-- The item at hand, at the end of it. -/
def State.finished : State -> List HeaderItem
  | .between => []
  | .opened begun => [itemOf begun]
  | .running begun _ _ => [itemOf begun]

/-- Read an opening bracket inside `depth` others. -/
def afterOpening (state : State) (c : Char) (depth : Nat) : State :=
  let bracket := glyph (.ofDepth depth) c
  match state with
  | .between => .opened [bracket]
  | .opened begun => .opened (begun ++ [bracket])
  | .running begun inner bound => .running (begun ++ [bracket]) (inner + 1) bound

/-- Read a closing bracket that leaves `depth` brackets open. -/
def afterClosing
    (state : State)
    (c : Char)
    (depth : Nat) : List HeaderItem × State :=
  let bracket := glyph (.ofDepth depth) c
  match state with
  | .between => ([.blank [bracket]], .between)
  | .opened begun => ([], .running (begun ++ [bracket]) 0 false)
  | .running begun inner bound =>
      ([], .running (begun ++ [bracket]) (inner - 1) bound)

/-- Read an operator. -/
def afterOperator
    (cutting : Segmentation)
    (state : State)
    (c : Char) : List HeaderItem × State :=
  match state with
  | .between => ([cutting.operatorItem c], .between)
  | .opened begun => ([itemOf (begun ++ [glyph .operator c])], .between)
  | .running begun inner bound =>
      if inner > 0 || (bound && cutting.operators.isUnary c) then
        ([], .running (begun ++ [glyph .operator c]) inner bound)
      else ([itemOf begun, cutting.operatorItem c], .between)

/-- Read a character that is no blank, bracket or operator. -/
def afterRelation (cutting : Segmentation) (state : State) (c : Char) : State :=
  let binds := cutting.operators.isBinder c
  match state with
  | .between => .running [glyph .plain c] 0 binds
  | .opened begun => .running (begun ++ [glyph .plain c]) 0 binds
  | .running begun inner bound =>
      .running (begun ++ [glyph .plain c]) inner (bound || binds)

/-- Read a blank, given the class of the next character that is none. -/
def afterSpace
    (state : State)
    (c : Char)
    (next : Option GlyphClass) : List HeaderItem × State :=
  match state with
  | .between => ([], .between)
  | .opened begun =>
      if next = none || next = some .closing then ([itemOf begun], .between)
      else ([], .opened (begun ++ [glyph .plain c]))
  | .running begun inner bound =>
      if inner > 0 || next = some .relation || next = some .opening then
        ([], .running (begun ++ [glyph .plain c]) inner bound)
      else ([itemOf begun], .between)

/-- Read the rest of a text with `depth` brackets open, after `position`
characters. The error is the position of a bracket with nothing to close. -/
def scan
    (cutting : Segmentation)
    (position depth : Nat)
    (state : State) : List Char -> Except Nat (List HeaderItem)
  | [] => .ok state.finished
  | c :: rest =>
      match cutting.classOf c with
      | .opening =>
          cutting.scan (position + 1) (depth + 1)
            (afterOpening state c depth) rest
      | .closing =>
          match depth with
          | 0 => .error position
          | depth + 1 =>
              let (items, state) := afterClosing state c depth
              (cutting.scan (position + 1) depth state rest).map (items ++ ·)
      | .operator =>
          let (items, state) := cutting.afterOperator state c
          (cutting.scan (position + 1) depth state rest).map (items ++ ·)
      | .relation =>
          cutting.scan (position + 1) depth (cutting.afterRelation state c) rest
      | .space =>
          let (items, state) := afterSpace state c (cutting.nextSolid? rest)
          (cutting.scan (position + 1) depth state rest).map (items ++ ·)

/-- The header items of a text. -/
def items
    (cutting : Segmentation)
    (text : String) : Except HeaderError (List HeaderItem) :=
  match cutting.scan 0 0 .between text.toList with
  | .ok items => .ok items
  | .error position => .error ⟨text, position⟩

end Segmentation

/-- The notation of a language, as it is cut into header items. -/
def Language.segmentation (language : Language) : Segmentation :=
  ⟨language.operatorSet, language.brackets⟩

end SymbolicLogic
