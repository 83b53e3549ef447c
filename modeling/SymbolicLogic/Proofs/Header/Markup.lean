import SymbolicLogic.Proofs.Header.Contents
import SymbolicLogic.Proofs.Header.Nesting

/-!
# Styled characters of items

Each solid character of a text is added, with a style, to the item at hand or to an
item that is made of it. So the solid characters of the items are those of the text,
in the same order and with the styles that the parts they play give them. Brackets
are styled by the number of brackets that are open around them.
-/

namespace SymbolicLogic

/-- The characters that are not blank. -/
def Text.solid (text : List Char) : List Char :=
  text.filter fun c => !Text.isBlank c

theorem Text.solid_append (left right : List Char) :
    Text.solid (left ++ right) = Text.solid left ++ Text.solid right :=
  List.filter_append _ _

namespace TextRun

/-- The characters of a list of runs, each with its style. -/
def marks (runs : List TextRun) : List (Style × Char) :=
  runs.flatMap fun run => run.text.toList.map fun c => (run.style, c)

@[simp] theorem marks_nil : marks [] = [] := rfl

theorem marks_cons (run : TextRun) (runs : List TextRun) :
    marks (run :: runs) =
      (run.text.toList.map fun c => (run.style, c)) ++ marks runs := rfl

@[simp] theorem marks_append (left right : List TextRun) :
    marks (left ++ right) = marks left ++ marks right :=
  List.flatMap_append

theorem marks_push (run : TextRun) (runs : List TextRun) :
    marks (push run runs) = marks (run :: runs) := by
  unfold push
  split
  · next empty => simp [marks_cons, empty]
  · split
    · rfl
    · split
      · next same => simp [marks_cons, same]
      · rfl

/-- Merging keeps the style of every character. -/
@[simp] theorem marks_merge (runs : List TextRun) :
    marks (merge runs) = marks runs := by
  induction runs with
  | nil => rfl
  | cons run runs inductionHypothesis =>
      rw [merge, List.foldr_cons, marks_push, marks_cons, marks_cons]
      exact congrArg _ inductionHypothesis

@[simp] theorem marks_glyph (style : Style) (c : Char) (runs : List TextRun) :
    marks (Segmentation.glyph style c :: runs) = (style, c) :: marks runs := by
  rw [marks_cons, Segmentation.text_glyph]
  rfl

/-- Marks have the characters of the text. -/
theorem map_marks (runs : List TextRun) :
    (marks runs).map Prod.snd = (plainText runs).toList := by
  induction runs with
  | nil => rfl
  | cons run runs inductionHypothesis =>
      rw [marks_cons, List.map_append, inductionHypothesis, plainText_cons,
        String.toList_append, List.map_map]
      exact congrArg (· ++ _) (List.map_id _)

end TextRun

/-- The characters of an item, each with its style. -/
def HeaderItem.marks (item : HeaderItem) : List (Style × Char) :=
  TextRun.marks item.runs

theorem HeaderItem.map_marks (item : HeaderItem) :
    item.marks.map Prod.snd = item.text.toList :=
  TextRun.map_marks item.runs

/-- The characters that are not blank, each with its style. -/
def solidMarks (marks : List (Style × Char)) : List (Style × Char) :=
  marks.filter fun mark => !Text.isBlank mark.2

@[simp] theorem solidMarks_nil : solidMarks [] = [] := rfl

@[simp] theorem solidMarks_append (left right : List (Style × Char)) :
    solidMarks (left ++ right) = solidMarks left ++ solidMarks right :=
  List.filter_append _ _

theorem solidMarks_of_blank
    {c : Char}
    (blank : Text.isBlank c = true)
    (style : Style)
    (marks : List (Style × Char)) :
    solidMarks ((style, c) :: marks) = solidMarks marks :=
  List.filter_cons_of_neg (by simp [blank])

theorem solidMarks_of_solid
    {c : Char}
    (solid : Text.isBlank c = false)
    (style : Style)
    (marks : List (Style × Char)) :
    solidMarks ((style, c) :: marks) = (style, c) :: solidMarks marks :=
  List.filter_cons_of_pos (by simp [solid])

theorem map_solidMarks (marks : List (Style × Char)) :
    (solidMarks marks).map Prod.snd = Text.solid (marks.map Prod.snd) := by
  rw [Text.solid, List.filter_map]
  rfl

namespace Segmentation

/-- The style of a character with `depth` brackets open in front of it. -/
def styleOf (cutting : Segmentation) (depth : Nat) (c : Char) : Style :=
  match cutting.classOf c with
  | .opening => .ofDepth depth
  | .closing => .ofDepth (depth - 1)
  | .operator => .operator
  | .relation => .plain
  | .space => .plain

/-- The solid characters of a text with their styles, if `depth` brackets are open
in front of it. -/
def markup
    (cutting : Segmentation)
    (depth : Nat) : List Char -> List (Style × Char)
  | [] => []
  | c :: rest =>
      solidMarks [(cutting.styleOf depth c, c)] ++
        cutting.markup (cutting.depthAfter depth c) rest

/-- The characters of the items that have been made and of the one at hand. -/
def shown (made : List HeaderItem × State) : List (Style × Char) :=
  made.1.flatMap (·.marks) ++ TextRun.marks made.2.begun

variable {cutting : Segmentation} {c : Char} {text : List Char}
  {depth position : Nat} {state : State} {items : List HeaderItem}

@[simp] theorem marks_itemOf (glyphs : List TextRun) :
    (itemOf glyphs).marks = TextRun.marks glyphs :=
  TextRun.marks_merge glyphs

/-- A character is a space to the scanner if it is blank. -/
theorem classOf_eq_space_iff :
    cutting.classOf c = .space ↔ Text.isBlank c = true := by
  unfold classOf
  split
  · next blank => simp [blank]
  · next solid =>
      refine iff_of_false ?_ solid
      split
      · exact nofun
      · split
        · exact nofun
        · split <;> exact nofun

theorem shown_afterOpening (state : State) (c : Char) (depth : Nat) :
    shown ([], afterOpening state c depth) =
      TextRun.marks state.begun ++ [(.ofDepth depth, c)] := by
  cases state <;> simp [shown, afterOpening, State.begun]

theorem shown_afterClosing (state : State) (c : Char) (depth : Nat) :
    shown (afterClosing state c depth) =
      TextRun.marks state.begun ++ [(.ofDepth depth, c)] := by
  cases state <;>
    simp [shown, afterClosing, State.begun, HeaderItem.marks, HeaderItem.runs]

theorem shown_afterRelation (cutting : Segmentation) (state : State) (c : Char) :
    shown ([], cutting.afterRelation state c) =
      TextRun.marks state.begun ++ [(.plain, c)] := by
  cases state <;> simp [shown, afterRelation, State.begun]

/-- The spaces around a binary operator are no part of the text. -/
theorem solidMarks_operatorItem (cutting : Segmentation) (c : Char) :
    solidMarks (cutting.operatorItem c).marks = solidMarks [(.operator, c)] := by
  rw [operatorItem]
  split
  · have spaced : (itemOf [glyph .plain ' ', glyph .operator c,
        glyph .plain ' ']).marks = (.plain, ' ') :: [(.operator, c)] ++
          [(.plain, ' ')] := by simp
    have blank : Text.isBlank ' ' = true := by decide
    rw [spaced, solidMarks_append, solidMarks_of_blank blank,
      solidMarks_of_blank blank]
    exact List.append_nil _
  · simp

/-- An operator that is taken up adds its mark, and perhaps blanks. -/
theorem solidMarks_afterOperator
    (cutting : Segmentation)
    (state : State)
    (c : Char) :
    solidMarks (shown (cutting.afterOperator state c)) =
      solidMarks (TextRun.marks state.begun ++ [(.operator, c)]) := by
  cases state with
  | between =>
      simp [shown, afterOperator, State.begun, solidMarks_operatorItem]
  | opened begun => simp [shown, afterOperator, State.begun]
  | running begun inner bound =>
      rw [afterOperator]
      split
      · simp [shown, State.begun]
      · simp [shown, State.begun, solidMarks_operatorItem]

theorem solidMarks_afterSpace
    (blank : Text.isBlank c = true)
    (state : State)
    (next : Option GlyphClass) :
    solidMarks (shown (afterSpace state c next)) =
      solidMarks (TextRun.marks state.begun) := by
  cases state with
  | between => rfl
  | opened begun =>
      rw [afterSpace]
      split <;> simp [shown, State.begun, solidMarks_of_blank blank]
  | running begun inner bound =>
      rw [afterSpace]
      split <;> simp [shown, State.begun, solidMarks_of_blank blank]

/-- A step adds the character, with its style, unless it is a blank. -/
theorem solidMarks_step
    (cutting : Segmentation)
    (depth : Nat)
    (state : State)
    (c : Char)
    (rest : List Char) :
    solidMarks (shown (cutting.step depth state c rest)) =
      solidMarks (TextRun.marks state.begun) ++
        solidMarks [(cutting.styleOf depth c, c)] := by
  rw [← solidMarks_append, step, styleOf]
  cases kind : cutting.classOf c with
  | opening => exact congrArg solidMarks (shown_afterOpening state c depth)
  | closing => exact congrArg solidMarks (shown_afterClosing state c (depth - 1))
  | operator => exact solidMarks_afterOperator cutting state c
  | relation => exact congrArg solidMarks (shown_afterRelation cutting state c)
  | space =>
      have blank := classOf_eq_space_iff.mp kind
      rw [solidMarks_append, solidMarks_of_blank blank]
      exact (solidMarks_afterSpace blank state _).trans (List.append_nil _).symm

/-- Induction along a scan that succeeds: each character is read by one step. -/
theorem scanInduction
    {motive : Nat -> State -> List Char -> List HeaderItem -> Prop}
    (finish : ∀ depth state, motive depth state [] state.finished)
    (step : ∀ depth state c rest others,
      motive (cutting.depthAfter depth c) (cutting.step depth state c rest).2 rest
          others ->
        motive depth state (c :: rest)
          ((cutting.step depth state c rest).1 ++ others))
    (scanned : cutting.scan position depth state text = .ok items) :
    motive depth state text items := by
  induction text generalizing position depth state items with
  | nil =>
      cases scanned
      exact finish depth state
  | cons c rest inductionHypothesis =>
      -- A closing bracket with nothing to close would have ended the scan.
      have matched := (matched_cons (not_isUnmatched_of_scan scanned)).1
      rw [scan_cons_eq_step matched] at scanned
      obtain ⟨others, scannedRest, rfl⟩ := exists_of_map_append scanned
      exact step depth state c rest others (inductionHypothesis scannedRest)

/-- The solid characters of the items are those of what was read before, and of the
text. -/
theorem solidMarks_of_scan
    (scanned : cutting.scan position depth state text = .ok items) :
    solidMarks (items.flatMap (·.marks)) =
      solidMarks (TextRun.marks state.begun) ++ cutting.markup depth text := by
  refine scanInduction (motive := fun depth state text items =>
    solidMarks (items.flatMap (·.marks)) =
      solidMarks (TextRun.marks state.begun) ++ cutting.markup depth text)
    ?_ ?_ scanned
  · intro depth state
    cases state <;> simp [State.finished, State.begun, markup]
  · intro depth state c rest others ofRest
    rw [List.flatMap_append, solidMarks_append, ofRest, ← List.append_assoc,
      ← solidMarks_append, markup, ← List.append_assoc,
      ← solidMarks_step cutting depth state c rest]
    rfl

/-- An item at hand has a solid character. -/
def State.IsSolid (state : State) : Prop :=
  state ≠ .between -> solidMarks (TextRun.marks state.begun) ≠ []

/-- Of the items made and the one at hand, each has a solid character. -/
def AllSolid (made : List HeaderItem × State) : Prop :=
  (∀ item ∈ made.1, solidMarks item.marks ≠ []) ∧ made.2.IsSolid

theorem allSolid_afterOpening
    (solid : Text.isBlank c = false)
    (state : State)
    (depth : Nat) : AllSolid ([], afterOpening state c depth) := by
  cases state <;>
    simp [AllSolid, State.IsSolid, afterOpening, State.begun, solidMarks_of_solid solid]

theorem allSolid_afterClosing
    (solid : Text.isBlank c = false)
    (state : State)
    (depth : Nat) : AllSolid (afterClosing state c depth) := by
  cases state <;>
    simp [AllSolid, State.IsSolid, afterClosing, State.begun, HeaderItem.marks,
      HeaderItem.runs, solidMarks_of_solid solid]

theorem allSolid_afterRelation
    (solid : Text.isBlank c = false)
    (cutting : Segmentation)
    (state : State) : AllSolid ([], cutting.afterRelation state c) := by
  cases state <;>
    simp [AllSolid, State.IsSolid, afterRelation, State.begun,
      solidMarks_of_solid solid]

theorem allSolid_afterOperator
    (solid : Text.isBlank c = false)
    (atHand : state.IsSolid)
    (cutting : Segmentation) : AllSolid (cutting.afterOperator state c) := by
  cases state with
  | between | opened begun =>
      simp [AllSolid, State.IsSolid, afterOperator, solidMarks_operatorItem,
        solidMarks_of_solid solid]
  | running begun inner bound =>
      have begunSolid : solidMarks (TextRun.marks begun) ≠ [] :=
        atHand fun absent => by cases absent
      rw [afterOperator]
      split <;>
        simp [AllSolid, State.IsSolid, State.begun, solidMarks_operatorItem,
          solidMarks_of_solid solid, begunSolid]

theorem allSolid_afterSpace
    (atHand : state.IsSolid)
    (c : Char)
    (next : Option GlyphClass) : AllSolid (afterSpace state c next) := by
  cases state with
  | between => simp [AllSolid, State.IsSolid, afterSpace]
  | opened begun | running begun inner bound =>
      have begunSolid : solidMarks (TextRun.marks begun) ≠ [] :=
        atHand fun absent => by cases absent
      rw [afterSpace]
      split <;> simp [AllSolid, State.IsSolid, State.begun, begunSolid]

/-- Every item that a step makes has a solid character, and so has the one at
hand. -/
theorem allSolid_step
    (atHand : state.IsSolid)
    (cutting : Segmentation)
    (depth : Nat)
    (c : Char)
    (rest : List Char) : AllSolid (cutting.step depth state c rest) := by
  have solid : cutting.classOf c ≠ .space -> Text.isBlank c = false := fun other =>
    Bool.eq_false_iff.mpr (mt classOf_eq_space_iff.mpr other)
  rw [step]
  cases kind : cutting.classOf c with
  | opening => exact allSolid_afterOpening (solid (by simp [kind])) state depth
  | closing => exact allSolid_afterClosing (solid (by simp [kind])) state (depth - 1)
  | operator => exact allSolid_afterOperator (solid (by simp [kind])) atHand cutting
  | relation => exact allSolid_afterRelation (solid (by simp [kind])) cutting state
  | space => exact allSolid_afterSpace atHand c _

/-- No item is empty or blank. -/
theorem solid_of_scan
    (scanned : cutting.scan position depth state text = .ok items)
    (atHand : state.IsSolid) : ∀ item ∈ items, solidMarks item.marks ≠ [] := by
  refine scanInduction (motive := fun _ state _ items => state.IsSolid ->
    ∀ item ∈ items, solidMarks item.marks ≠ []) ?_ ?_ scanned atHand
  · intro depth state atHand
    cases state with
    | between => exact nofun
    | opened begun | running begun inner bound =>
        simpa [State.finished, State.begun] using
          atHand fun absent => by cases absent
  · intro depth state c rest others ofRest atHand
    obtain ⟨made, after⟩ := allSolid_step atHand cutting depth c rest
    exact List.forall_mem_append.mpr ⟨made, ofRest after⟩

/-- The markup of a text has its characters, but for blanks. -/
theorem map_markup (cutting : Segmentation) (depth : Nat) (text : List Char) :
    (cutting.markup depth text).map Prod.snd = Text.solid text := by
  induction text generalizing depth with
  | nil => rfl
  | cons c rest inductionHypothesis =>
      rw [markup, List.map_append, inductionHypothesis, map_solidMarks,
        ← Text.solid_append]
      rfl

/-- A bracket has the style of its depth. -/
theorem exists_styleOf
    (matched : cutting.IsClosing c -> 0 < depth)
    (bracket : cutting.IsOpening c ∨ cutting.IsClosing c) :
    ∃ around, cutting.styleOf depth c = .ofDepth around ∧
      around + cutting.closings [c] = depth := by
  rw [styleOf]
  rcases bracket with opens | closes
  · rw [classOf_eq_opening_iff.mpr opens, closings_singleton,
      if_neg fun closes => IsClosing.not_isOpening closes opens]
    exact ⟨depth, rfl, rfl⟩
  · rw [classOf_eq_closing_iff.mpr closes, closings_singleton, if_pos closes]
    exact ⟨depth - 1, rfl, Nat.sub_add_cancel (matched closes)⟩

theorem exists_of_markup_eq
    {before after : List (Style × Char)}
    {style : Style}
    (none : ∀ place, ¬cutting.IsUnmatched depth text place)
    (marked : cutting.markup depth text = before ++ (style, c) :: after)
    (bracket : cutting.IsOpening c ∨ cutting.IsClosing c) :
    ∃ front rest around, text = front ++ c :: rest ∧
      Text.solid front = before.map Prod.snd ∧ style = .ofDepth around ∧
      around + cutting.closings (front ++ [c]) = depth + cutting.openings front := by
  induction text generalizing depth before with
  | nil => simp [markup] at marked
  | cons first text inductionHypothesis =>
      obtain ⟨matched, others⟩ := matched_cons none
      have balance := depthAfter_add_closings matched
      -- The bracket is either the first character or one of the others.
      have later : ∀ before',
          cutting.markup (cutting.depthAfter depth first) text =
            before' ++ (style, c) :: after ->
          before.map Prod.snd = Text.solid [first] ++ before'.map Prod.snd ->
          ∃ front rest around, first :: text = front ++ c :: rest ∧
            Text.solid front = before.map Prod.snd ∧ style = .ofDepth around ∧
            around + cutting.closings (front ++ [c]) =
              depth + cutting.openings front := by
        intro before' marked beforeEq
        obtain ⟨front, rest, around, rfl, solidEq, styleEq, inside⟩ :=
          inductionHypothesis others marked
        refine ⟨first :: front, rest, around, rfl, ?_, styleEq, ?_⟩
        · rw [beforeEq, ← solidEq, ← Text.solid_append]
          rfl
        · rw [List.cons_append, closings_cons, openings_cons]
          omega
      rw [markup] at marked
      cases blank : Text.isBlank first with
      | true =>
          rw [solidMarks_of_blank blank] at marked
          exact later before marked (by simp [Text.solid, blank])
      | false =>
          rw [solidMarks_of_solid blank] at marked
          cases before with
          | nil =>
              obtain ⟨markEq, -⟩ := List.cons.inj marked
              obtain ⟨rfl, rfl⟩ := Prod.mk.inj markEq
              obtain ⟨around, styleEq, inside⟩ := exists_styleOf matched bracket
              exact ⟨[], text, around, rfl, rfl, styleEq, inside⟩
          | cons mark before =>
              obtain ⟨rfl, othersEq⟩ := List.cons.inj marked
              exact later before othersEq (by simp [Text.solid, blank])

end Segmentation
end SymbolicLogic
