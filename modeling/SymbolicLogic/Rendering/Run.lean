/-!
# Styled text

A run is a piece of text with one style. Brackets are shaded by nesting depth,
so that the two brackets of a pair look alike. Merging a list of runs joins
neighbours of one style and drops empty runs; the text stays as it is.
-/

namespace SymbolicLogic

/-- What a piece of text shows. -/
inductive Style
  /-- Spacing, and words that are not part of an expression. -/
  | plain
  | letter
  | relation
  | term
  | operator
  | metavariable
  | punctuation
  | bracket (shade : Fin 6)
  | superscript
  | subscript
  deriving DecidableEq, Repr

/-- The style of a bracket with `depth` brackets open around it. -/
def Style.ofDepth (depth : Nat) : Style :=
  .bracket (Fin.ofNat 6 depth)

/-- A piece of text with one style. -/
structure TextRun where
  style : Style
  text : String
  deriving DecidableEq, Repr

namespace TextRun

/-- The text of a list of runs. -/
def plainText : List TextRun -> String
  | [] => ""
  | run :: runs => run.text ++ plainText runs

/-- Put a run in front of merged runs, joining it to the first one if their
styles agree and leaving it out if it is empty. -/
def push (run : TextRun) (runs : List TextRun) : List TextRun :=
  if run.text = "" then runs
  else
    match runs with
    | [] => [run]
    | next :: rest =>
        if run.style = next.style then
          { next with text := run.text ++ next.text } :: rest
        else
          run :: next :: rest

/-- Join neighbours of one style and drop empty runs. -/
def merge (runs : List TextRun) : List TextRun :=
  runs.foldr push []

@[simp] theorem plainText_nil : plainText [] = "" := rfl

@[simp] theorem plainText_cons (run : TextRun) (runs : List TextRun) :
    plainText (run :: runs) = run.text ++ plainText runs := rfl

@[simp] theorem plainText_append (left right : List TextRun) :
    plainText (left ++ right) = plainText left ++ plainText right := by
  induction left with
  | nil => simp
  | cons run runs ih => simp [ih, String.append_assoc]

/-- A run that is pushed adds its text in front. -/
@[simp] theorem plainText_push (run : TextRun) (runs : List TextRun) :
    plainText (push run runs) = run.text ++ plainText runs := by
  unfold push
  split
  · next empty => simp [empty]
  · split
    · simp
    · split <;> simp [String.append_assoc]

/-- Merging keeps the text. -/
@[simp] theorem plainText_merge (runs : List TextRun) :
    plainText (merge runs) = plainText runs := by
  induction runs with
  | nil => rfl
  | cons run runs ih =>
      rw [merge, List.foldr_cons, plainText_push, plainText_cons]
      exact congrArg (run.text ++ ·) ih

end TextRun
end SymbolicLogic
