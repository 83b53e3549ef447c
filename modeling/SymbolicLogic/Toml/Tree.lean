import SymbolicLogic.Toml.Value

/-!
# Building TOML tables

A document is built one statement at a time. A table knows how it came to be,
because that decides what may still be added: a header may define a table that
so far was only on the way to another, dotted keys may extend what dotted keys
began and pass through what has no header yet, and a value is never extended.
-/

namespace SymbolicLogic
namespace Toml

/-- How a table came to be. -/
inductive Origin
  | header
  /-- On the way to a table with a header of its own. -/
  | implied
  /-- On the way to a value with a dotted key. -/
  | dotted
  deriving DecidableEq, Repr

/-- What a key stands for while a document is built. -/
inductive Node
  | value (value : Value)
  | table (origin : Origin) (entries : List (String × Node))
  | tables (items : List (List (String × Node)))

/-- The entries of a table while a document is built. -/
abbrev Tree := List (String × Node)

/-- One statement of a document. -/
inductive Statement
  | assign (path : List String) (value : Value)
  | header (path : List String)
  /-- The header of the next table in an array of tables. -/
  | item (path : List String)

namespace Tree

/-- What a key stands for. -/
def get? (tree : Tree) (key : String) : Option Node :=
  (tree.find? fun entry => entry.1 = key).map Prod.snd

/-- Put a node under a key, in place of the one there or at the end. -/
def put (tree : Tree) (key : String) (node : Node) : Tree :=
  if (tree.get? key).isSome then
    tree.map fun entry => if entry.1 = key then (key, node) else entry
  else tree ++ [(key, node)]

/-- A node that was put under a key is found there. -/
theorem get?_put (tree : Tree) (key : String) (node : Node) :
    (tree.put key node).get? key = some node := by
  unfold put
  split
  · next present =>
      have keyed : ((fun entry : String × Node => decide (entry.1 = key)) ∘
          fun entry => if entry.1 = key then (key, node) else entry) =
            fun entry => decide (entry.1 = key) := by
        funext entry
        by_cases same : entry.1 = key <;> simp [same]
      obtain ⟨found, present⟩ := Option.isSome_iff_exists.mp present
      obtain ⟨entry, lookup, -⟩ := Option.map_eq_some_iff.mp present
      have same := List.find?_some lookup
      simp only [get?, List.find?_map, keyed, lookup]
      simp_all
  · next absent =>
      have missing :
          (tree.find? fun entry => decide (entry.1 = key)) = none := by
        cases lookup : tree.find? fun entry => decide (entry.1 = key) with
        | none => rfl
        | some entry => simp [get?, lookup] at absent
      simp [get?, List.find?_append, missing]

/-- Assign a value to a dotted key. On the way to it lie tables without a header
of their own, and of an array of tables the last one. The table it goes into
must be `mine`: the one the assignment is made in, or one that dotted keys
began. -/
def assign (mine : Bool) : List String -> Value -> Tree -> Option Tree
  | [], _, _ => none
  | [key], value, tree =>
      match tree.get? key with
      | none => if mine then some (tree.put key (.value value)) else none
      | some _ => none
  | key :: path, value, tree =>
      match tree.get? key with
      | none =>
          (assign true path value []).map fun inner =>
            tree.put key (.table .dotted inner)
      | some (.table .header _) => none
      | some (.table origin inner) =>
          (assign (origin = .dotted) path value inner).map fun inner =>
            tree.put key (.table origin inner)
      | some (.tables items) =>
          match items.getLast? with
          | none => none
          | some inner =>
              (assign false path value inner).map fun inner =>
                tree.put key (.tables (items.dropLast ++ [inner]))
      | some (.value _) => none

/-- Change the table at a path. Of an array of tables it is the last one. -/
def within (path : List String) (change : Tree -> Option Tree) (tree : Tree) :
    Option Tree :=
  match path with
  | [] => change tree
  | key :: path =>
      match tree.get? key with
      | none =>
          (within path change []).map fun inner =>
            tree.put key (.table .implied inner)
      | some (.table origin inner) =>
          (within path change inner).map fun inner =>
            tree.put key (.table origin inner)
      | some (.tables items) =>
          match items.getLast? with
          | none => none
          | some inner =>
              (within path change inner).map fun inner =>
                tree.put key (.tables (items.dropLast ++ [inner]))
      | some (.value _) => none

/-- Define a table by its header. -/
def define (path : List String) (tree : Tree) : Option Tree :=
  match path.getLast? with
  | none => none
  | some key =>
      within path.dropLast (fun parent =>
        match parent.get? key with
        | none => some (parent.put key (.table .header []))
        | some (.table .implied inner) =>
            some (parent.put key (.table .header inner))
        | some _ => none) tree

/-- Add a table to an array of tables. -/
def append (path : List String) (tree : Tree) : Option Tree :=
  match path.getLast? with
  | none => none
  | some key =>
      within path.dropLast (fun parent =>
        match parent.get? key with
        | none => some (parent.put key (.tables [[]]))
        | some (.tables items) => some (parent.put key (.tables (items ++ [[]])))
        | some _ => none) tree

/-- Add statements, where `current` is the path of the last header. -/
def addAll (current : List String) : List Statement -> Tree -> Option Tree
  | [], tree => some tree
  | .assign path value :: statements, tree =>
      (within current (assign true path value) tree).bind
        (addAll current statements)
  | .header path :: statements, tree =>
      (define path tree).bind (addAll path statements)
  | .item path :: statements, tree =>
      (append path tree).bind (addAll path statements)

end Tree

mutual

/-- The value of a finished node. -/
def Node.toValue : Node -> Value
  | .value v => v
  | .table _ entries => .table (Node.toEntries entries)
  | .tables items => .array (Node.toTables items)

/-- The entries of a finished table. -/
def Node.toEntries : List (String × Node) -> Entries
  | [] => []
  | (key, node) :: rest => (key, node.toValue) :: Node.toEntries rest

/-- The finished tables of an array. -/
def Node.toTables : List (List (String × Node)) -> List Value
  | [] => []
  | entries :: rest => .table (Node.toEntries entries) :: Node.toTables rest

end

/-- The table a list of statements describes, unless they contradict each
other. -/
def Entries.ofStatements? (statements : List Statement) : Option Entries :=
  (Tree.addAll [] statements []).map Node.toEntries

end Toml
end SymbolicLogic
