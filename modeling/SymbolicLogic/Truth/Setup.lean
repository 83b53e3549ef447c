import SymbolicLogic.Grammar.Parse
import SymbolicLogic.Header.Scan
import SymbolicLogic.Truth.Decomposition
import SymbolicLogic.Truth.Table

/-!
# Setting up a truth table

A setup lists the texts of the basic formulas and of the main formulas, and may
declare the number of rows. It is checked from the front: the basic formulas are
there, none is blank, all are sentences in ascending order of their texts, the
rows are as declared and within the limit, and the main formulas are sentences.
Then each main formula is laid out below its header. The first fault stops the
checks.
-/

namespace SymbolicLogic

/-- The list of a setup that a text stands in. -/
inductive OperandRole
  | basic
  | main
  deriving DecidableEq, Repr

def OperandRole.name : OperandRole -> String
  | .basic => "basic formula"
  | .main => "main formula"

/-- Why a text of a setup is not a sentence. -/
inductive OperandFault
  | term
  | unreadable (failure : ParseFailure)
  deriving DecidableEq, Repr

def OperandFault.reason : OperandFault -> String
  | .term => "it is a term"
  | .unreadable failure => failure.message

/-- What is wrong with a setup. Positions of formulas start at one. -/
inductive SetupError
  | noBasicFormula
  | emptyBasicFormula (position : Nat)
  | malformedOperand
      (role : OperandRole)
      (position : Nat)
      (text : String)
      (fault : OperandFault)
  | orderViolation (previous next : Formula)
  | rowCountMismatch (declared expected basics : Nat)
  | rowLimitExceeded (rows limit : Nat)
  | undeclaredBasic (formula subformula : Formula) (column : Nat)
  | layoutMismatch (formula : Formula) (columns items : Nat)
  | header (error : HeaderError)

namespace SetupError

def message : SetupError -> String
  | .noBasicFormula => "no basic formula was declared"
  | .emptyBasicFormula position =>
      "basic formula #" ++ toString position ++ " is empty"
  | .malformedOperand role position text fault =>
      role.name ++ " #" ++ toString position ++ " `" ++ text ++
        "` is not a sentence: " ++ fault.reason
  | .orderViolation previous next =>
      "basic formulas must be in ascending order, but `" ++ previous.text ++
        "` comes before `" ++ next.text ++ "`"
  | .rowCountMismatch declared expected basics =>
      toString basics ++ " basic formula(s) need " ++ toString expected ++
        " rows, but " ++ toString declared ++ " were declared"
  | .rowLimitExceeded rows limit =>
      "a table with " ++ toString rows ++ " rows exceeds the limit of " ++
        toString limit ++ " rows"
  | .undeclaredBasic formula subformula column =>
      "`" ++ subformula.text ++ "` in main formula `" ++ formula.text ++
        "` (column " ++ toString column ++ ") is not a declared basic formula"
  | .layoutMismatch formula columns items =>
      "`" ++ formula.text ++ "` has " ++ toString columns ++
        " value column(s) but its header has " ++ toString items
  | .header error => Reportable.message error

/-- The report on a setup: a header that cannot be cut has a report of its
own. -/
def report : SetupError -> Report
  | .header error => Reportable.report error
  | error =>
      { title := "Invalid truth table"
        fragments := fragments error }
where
  /-- The body of the report. -/
  fragments : SetupError -> List TextRun
    | .noBasicFormula => Report.words "declare at least one basic formula"
    | .emptyBasicFormula position =>
        Report.words ("basic formula #" ++ toString position ++ " is empty")
    | .malformedOperand role position text fault =>
        Report.words (role.name ++ " #" ++ toString position ++ " ") ++
          Report.quoted text ++
          Report.words (" is not a sentence: " ++ fault.reason)
    | .orderViolation previous next =>
        Report.words "basic formulas must be in alphanumeric order, but " ++
          (Expression.formula previous).runs ++
          Report.words " is listed before " ++ (Expression.formula next).runs
    | .rowCountMismatch declared expected basics =>
        Report.words
          (toString basics ++ " basic formula(s) need " ++ toString expected ++
            " rows, not " ++ toString declared)
    | .rowLimitExceeded rows limit =>
        Report.words
          (toString rows ++ " rows are more than the limit of " ++
            toString limit)
    | .undeclaredBasic formula subformula column =>
        (Expression.formula subformula).runs ++ Report.words " in " ++
          (Expression.formula formula).runs ++
          Report.words
            (" (column " ++ toString column ++
              ") is not a declared basic formula")
    | .layoutMismatch formula columns items =>
        (Expression.formula formula).runs ++
          Report.words
            (" needs " ++ toString columns ++
              " column(s) but its header has " ++ toString items)
    | .header error => (Reportable.report error).fragments

end SetupError

instance : Reportable SetupError where
  message := SetupError.message
  report := SetupError.report

/-- The texts of a truth table, and its number of rows if it is declared. -/
structure Setup where
  basics : List String
  mains : List String
  rows : Option Nat
  maxRows : Nat
  deriving DecidableEq, Repr

namespace Setup

/-- Read a text of a setup as a sentence. -/
def readSentence
    (language : Language)
    (role : OperandRole)
    (position : Nat)
    (text : String) : Except SetupError Formula :=
  match language.parseExpression text with
  | .ok (.formula formula) => .ok formula
  | .ok (.term _) => .error (.malformedOperand role position text .term)
  | .error error =>
      .error (.malformedOperand role position text (.unreadable error.failure))

/-- Read the texts of a list, counting from one. -/
def readSentences
    (language : Language)
    (role : OperandRole)
    (texts : List String) : Except SetupError (List Formula) :=
  (texts.zipIdx 1).mapM fun (text, position) =>
    readSentence language role position text

/-- Check that the texts of formulas are strictly ascending. -/
def checkOrder : List Formula -> Except SetupError Unit
  | previous :: next :: rest =>
      if previous.text < next.text then checkOrder (next :: rest)
      else .error (.orderViolation previous next)
  | _ => .ok ()

/-- The number of rows for `n` basic formulas, if it is as declared and within
the limit. A number that no row number can reach counts as the largest one. -/
def checkedRows (setup : Setup) (n : Nat) : Except SetupError Nat :=
  match Interpretation.rowCount? n with
  | none => .error (.rowLimitExceeded Interpretation.greatestCount setup.maxRows)
  | some expected =>
      match setup.rows.filter fun declared => declared != expected with
      | some declared => .error (.rowCountMismatch declared expected n)
      | none =>
          if expected > setup.maxRows then
            .error (.rowLimitExceeded expected setup.maxRows)
          else .ok expected

/-- The columns of the basic formulas. -/
def basicColumns
    (basics : List Formula)
    (interpretations : List Interpretation) : List Column :=
  basics.zipIdx.map fun (formula, place) =>
    Column.basic (Expression.formula formula).runs
      (interpretations.map fun interpretation => interpretation.value place)

/-- The values of the displayed parts of a formula, with the role of each: the
node at `root` is the whole formula. -/
def displayedValues
    (decomposition : Decomposition)
    (root : Nat)
    (interpretations : List Interpretation) : List (ColumnRole × List Bool) :=
  let values := decomposition.evaluate interpretations
  decomposition.displayed.map fun place =>
    (if place = root then .main else .part, values[place]?.getD [])

/-- The columns of a main formula, the first of which has number `base`. -/
def layOut
    (language : Language)
    (basics : List Formula)
    (interpretations : List Interpretation)
    (base : Nat)
    (formula : Formula) : Except SetupError (List Column) :=
  match language.segmentation.items formula.text with
  | .error error => .error (.header error)
  | .ok items =>
      let positions := HeaderItem.valuePositions items
      match Decomposition.of formula basics with
      | .error undeclared =>
          let place := (undeclared.position.bind (positions[·]?)).getD 0
          .error (.undeclaredBasic formula undeclared.subformula (base + place))
      | .ok (root, decomposition) =>
          if decomposition.displayed.length = positions.length then
            .ok (Column.place items
              (displayedValues decomposition root interpretations))
          else
            .error (.layoutMismatch formula decomposition.displayed.length
              positions.length)

/-- The columns of main formulas, each after a divider, where `base` columns
stand before them. -/
def layOutAll
    (language : Language)
    (basics : List Formula)
    (interpretations : List Interpretation)
    (base : Nat) : List Formula -> Except SetupError (List Column)
  | [] => .ok []
  | formula :: formulas => do
      let columns <- layOut language basics interpretations (base + 1) formula
      let others <- layOutAll language basics interpretations
        (base + 1 + columns.length) formulas
      return Column.blank .divider :: columns ++ others

/-- Check that there are texts of basic formulas, and that none is blank. -/
def checkTexts (setup : Setup) : Except SetupError Unit :=
  if setup.basics.isEmpty then .error .noBasicFormula
  else
    match setup.basics.findIdx? fun text => Text.allBlank text.toList with
    | some position => .error (.emptyBasicFormula (position + 1))
    | none => .ok ()

/-- Check a setup and read its formulas, the basic and the main ones. -/
def readOperands
    (setup : Setup)
    (language : Language) : Except SetupError (List Formula × List Formula) := do
  setup.checkTexts
  let basics <- readSentences language .basic setup.basics
  checkOrder basics
  let _ <- setup.checkedRows basics.length
  let mains <- readSentences language .main setup.mains
  return (basics, mains)

/-- Check a setup and compute its table. -/
def build (setup : Setup) (language : Language) : Except SetupError Table := do
  let (basics, mains) <- setup.readOperands language
  let interpretations := Interpretation.all basics.length
  let columns := basicColumns basics interpretations
  let others <-
    layOutAll language basics interpretations columns.length mains
  return ⟨basics, mains, interpretations, columns ++ others⟩

end Setup
end SymbolicLogic
