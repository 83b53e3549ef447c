import SymbolicLogic.Truth.Setup

/-!
# Tabulations

A tabulation keeps the parts of a table in vectors of their own, each with an entry for
every column. The vectors grow side by side. A basic formula adds a column with its
values. A main formula adds a divider and then a blank column for each item of its
header. Its values are computed afterwards and written over the blanks, at the places of
the value items, and the place of its own values is noted as its main column. The marks
of main columns are set when all columns are there.

Entries are read and written by their places. A place that a vector does not have ends
the work without a result, not even an error.
-/

namespace SymbolicLogic

/-- Write over the entry of a vector at a place. -/
def overwrite? (entries : List α) (place : Nat) (entry : α) : Option (List α) :=
  if place < entries.length then some (entries.set place entry) else none

/-- The vectors of a table that has columns to come. -/
structure Draft where
  header : List HeaderItem
  key : List (Option (List Bool))
  basicColumns : List Bool
  mainColumns : List Nat

/-- A table as vectors that have an entry for each column. -/
structure Tabulation where
  basics : List Formula
  mains : List Formula
  header : List HeaderItem
  key : List (Option (List Bool))
  rows : Nat
  highlight : List Bool
  basicColumns : List Bool
  mainColumns : List Nat
  interpretations : List Interpretation

namespace Draft

def empty : Draft :=
  ⟨[], [], [], []⟩

/-- Add a column. -/
def push
    (draft : Draft)
    (item : HeaderItem)
    (values : Option (List Bool))
    (isBasic : Bool) : Draft :=
  { draft with
    header := draft.header ++ [item]
    key := draft.key ++ [values]
    basicColumns := draft.basicColumns ++ [isBasic] }

/-- Add the column of a basic formula, given its place among these. -/
def pushBasic
    (interpretations : List Interpretation)
    (draft : Draft)
    (declared : Formula × Nat) : Draft :=
  draft.push (.value (Expression.formula declared.1).runs)
    (some (interpretations.map fun interpretation => interpretation.value declared.2))
    true

/-- The columns of the basic formulas. -/
def ofBasics (basics : List Formula) (interpretations : List Interpretation) : Draft :=
  basics.zipIdx.foldl (pushBasic interpretations) empty

/-- Add a blank column for each item. -/
def extend (draft : Draft) (items : List HeaderItem) : Draft :=
  { draft with
    key := draft.key ++ List.replicate items.length none
    basicColumns := draft.basicColumns ++ List.replicate items.length false
    header := draft.header ++ items }

/-- Write the values of a node into a column. The column of the root is a main
column. -/
def fill?
    (root : Nat)
    (values : List (List Bool))
    (draft : Draft)
    (target : Nat × Nat) : Option Draft := do
  let own <- values[target.1]?
  let key <- overwrite? draft.key target.2 (some own)
  return {
    draft with
    key := key
    mainColumns :=
      if target.1 = root then draft.mainColumns ++ [target.2]
      else draft.mainColumns }

/-- Add the columns of a main formula behind a divider. -/
def addMain
    (language : Language)
    (basics : List Formula)
    (interpretations : List Interpretation)
    (draft : Draft)
    (formula : Formula) : ExceptT SetupError Option Draft :=
  let opened := draft.push .divider none false
  let base := opened.header.length
  match language.segmentation.items formula.text with
  | .error error => throw (.header error)
  | .ok items =>
      let columns := (HeaderItem.valuePositions items).map (base + ·)
      match Decomposition.of formula basics with
      | .error undeclared =>
          let column := (undeclared.position.bind (columns[·]?)).getD base
          throw (.undeclaredBasic formula undeclared.subformula column)
      | .ok (root, decomposition) =>
          if decomposition.displayed.length = columns.length then
            let values := decomposition.evaluate interpretations
            let targets := decomposition.displayed.zip columns
            liftM (targets.foldlM (fill? root values) (opened.extend items))
          else
            throw (.layoutMismatch formula decomposition.displayed.length
              columns.length)

/-- The marks of the main columns. -/
def highlight? (draft : Draft) : Option (List Bool) :=
  draft.mainColumns.foldlM (fun marks column => overwrite? marks column true)
    (List.replicate draft.header.length false)

end Draft

/-- Check a setup and compute its table vector by vector. -/
def Setup.tabulate
    (setup : Setup)
    (language : Language) : ExceptT SetupError Option Tabulation := do
  let (basics, mains) <- liftExcept (setup.readOperands language)
  let interpretations := Interpretation.all basics.length
  let draft <- mains.foldlM (Draft.addMain language basics interpretations)
    (Draft.ofBasics basics interpretations)
  let highlight <- liftM draft.highlight?
  return {
    basics := basics
    mains := mains
    header := draft.header
    key := draft.key
    rows := interpretations.length
    highlight := highlight
    basicColumns := draft.basicColumns
    mainColumns := draft.mainColumns
    interpretations := interpretations }

/-- The vectors of a table. -/
abbrev Table.tabulation (table : Table) : Tabulation where
  basics := table.basics
  mains := table.mains
  header := table.header
  key := table.key
  rows := table.rows
  highlight := table.highlight
  basicColumns := table.basicColumns
  mainColumns := table.mainColumns
  interpretations := table.interpretations

end SymbolicLogic
