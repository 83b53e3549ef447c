import SymbolicLogic.Proofs.Header.Counting
import SymbolicLogic.Proofs.Header.Terms
import SymbolicLogic.Proofs.Lists

/-!
# What the items of a text show

No character is lost when text is cut: what goes on with the item at hand is
added to its text as it stands. So a text that is one item is found in it as a
contiguous piece, and so is the glyph of an operator in the item of the operator.
From this it follows, part by part, which pieces the items of a text show.
-/

namespace SymbolicLogic

open TextRun

namespace Segmentation

/-- What has been read of the item at hand. -/
def State.begun : State -> List TextRun
  | .between => []
  | .opened begun => begun
  | .running begun _ _ => begun

variable {cutting : Segmentation} {text text' : List Char} {c mark : Char}
  {position depth inner : Nat} {state : State} {begun : List TextRun}
  {bound : Bool} {items : List HeaderItem} {item : HeaderItem}

@[simp] theorem text_itemOf (glyphs : List TextRun) :
    (itemOf glyphs).text.toList = characters glyphs := by
  simp [itemOf, HeaderItem.text, HeaderItem.runs, characters]

@[simp] theorem text_glyph (style : Style) (c : Char) :
    (glyph style c).text.toList = [c] := by
  simp [glyph]

/-- A character that goes on with the item at hand is added to its text. -/
def State.Takes (state : State) (c : Char) (state' : State) : Prop :=
  state' ≠ .between ∧ characters state'.begun = characters state.begun ++ [c]

theorem takes_afterOpening (state : State) (c : Char) (depth : Nat) :
    state.Takes c (afterOpening state c depth) := by
  cases state <;> simp [State.Takes, afterOpening, State.begun]

theorem takes_afterRelation (cutting : Segmentation) (state : State) (c : Char) :
    state.Takes c (cutting.afterRelation state c) := by
  cases state <;> simp [State.Takes, afterRelation, State.begun]

theorem takes_afterClosing
    (kept : (afterClosing state c depth).1 = []) :
    state.Takes c (afterClosing state c depth).2 := by
  cases state with
  | between => cases kept
  | opened | running => simp [State.Takes, afterClosing, State.begun]

theorem takes_afterOperator
    (kept : (cutting.afterOperator state c).1 = []) :
    state.Takes c (cutting.afterOperator state c).2 := by
  cases state with
  | between | opened => cases kept
  | running begun inner bound =>
      rw [afterOperator] at kept ⊢
      split at kept
      · next joins =>
          rw [if_pos joins]
          simp [State.Takes, State.begun]
      · cases kept

theorem takes_afterSpace
    {next : Option GlyphClass}
    (atHand : state ≠ .between)
    (kept : (afterSpace state c next).1 = []) :
    state.Takes c (afterSpace state c next).2 := by
  cases state with
  | between => exact absurd rfl atHand
  | opened begun =>
      rw [afterSpace] at kept ⊢
      split at kept
      · cases kept
      · next joins =>
          rw [if_neg joins]
          simp [State.Takes, State.begun]
  | running begun inner bound =>
      rw [afterSpace] at kept ⊢
      split at kept
      · next joins =>
          rw [if_pos joins]
          simp [State.Takes, State.begun]
      · cases kept

/-- If items are put in front of others and all are found, the others are found. -/
theorem exists_of_map_append
    {result : Except Nat (List HeaderItem)}
    {first all : List HeaderItem}
    (mapped : result.map (first ++ ·) = .ok all) :
    ∃ others, result = .ok others ∧ all = first ++ others := by
  cases result with
  | error => cases mapped
  | ok others =>
      cases mapped
      exact ⟨others, rfl, rfl⟩

/-- A character makes some items, or else it is taken, unless it is a blank with
no item at hand. -/
theorem scan_cons
    (scanned : cutting.scan position depth state (c :: text) = .ok items) :
    ∃ first others position' depth' state',
      cutting.scan position' depth' state' text = .ok others ∧
      items = first ++ others ∧
      (first = [] -> state ≠ .between ∨ cutting.classOf c ≠ .space ->
        state.Takes c state') := by
  cases kind : cutting.classOf c with
  | relation =>
      rw [scan_of_relation kind] at scanned
      exact ⟨[], items, _, _, _, scanned, rfl,
        fun _ _ => takes_afterRelation cutting state c⟩
  | opening =>
      rw [scan_of_opening kind] at scanned
      exact ⟨[], items, _, _, _, scanned, rfl,
        fun _ _ => takes_afterOpening state c depth⟩
  | closing =>
      cases depth with
      | zero =>
          rw [scan.eq_def] at scanned
          simp [kind] at scanned
      | succ depth =>
          rw [scan_of_closing kind] at scanned
          obtain ⟨others, scannedRest, rfl⟩ := exists_of_map_append scanned
          exact ⟨_, others, _, _, _, scannedRest, rfl,
            fun kept _ => takes_afterClosing kept⟩
  | operator =>
      rw [scan_of_operator kind] at scanned
      obtain ⟨others, scannedRest, rfl⟩ := exists_of_map_append scanned
      exact ⟨_, others, _, _, _, scannedRest, rfl,
        fun kept _ => takes_afterOperator kept⟩
  | space =>
      rw [scan_of_space kind] at scanned
      obtain ⟨others, scannedRest, rfl⟩ := exists_of_map_append scanned
      refine ⟨_, others, _, _, _, scannedRest, rfl, fun kept atHand => ?_⟩
      exact takes_afterSpace (atHand.resolve_right fun solid => solid rfl) kept

/-- A text with a symbol at its end makes an item. -/
theorem ne_nil_of_scan
    (relates : cutting.classOf mark = .relation)
    (scanned : cutting.scan position depth state (text ++ [mark]) = .ok items) :
    items ≠ [] := by
  induction text generalizing position depth state items with
  | nil =>
      rw [List.nil_append, scan_of_relation relates] at scanned
      obtain ⟨begun, after⟩ := exists_afterRelation cutting state mark
      rw [after] at scanned
      cases scanned
      exact List.cons_ne_nil _ _
  | cons c text inductionHypothesis =>
      obtain ⟨first, others, _, _, _, scannedRest, rfl, -⟩ := scan_cons scanned
      exact List.append_ne_nil_of_right_ne_nil _
        (inductionHypothesis scannedRest)

/-- The text of a single item is what was read of it before, and the text that is
read. -/
theorem text_of_scan
    (relates : cutting.classOf mark = .relation)
    (starts : state = .between -> cutting.Begins (text ++ [mark]) false)
    (scanned : cutting.scan position depth state (text ++ [mark]) = .ok [item]) :
    item.text.toList = characters state.begun ++ (text ++ [mark]) := by
  induction text generalizing position depth state with
  | nil =>
      rw [List.nil_append, scan_of_relation relates] at scanned
      have taken := (takes_afterRelation cutting state mark).2
      obtain ⟨begun, after⟩ := exists_afterRelation cutting state mark
      rw [after] at scanned taken
      cases scanned
      rw [text_itemOf]
      exact taken
  | cons c text inductionHypothesis =>
      obtain ⟨first, others, _, _, _, scannedRest, itemEq, takes⟩ :=
        scan_cons scanned
      have isItem := ne_nil_of_scan relates scannedRest
      rcases List.singleton_eq_append_iff.mp itemEq with ⟨rfl, rfl⟩ | ⟨-, none⟩
      · have atHand : state ≠ .between ∨ cutting.classOf c ≠ .space := by
          cases state with
          | between =>
              obtain ⟨_, ⟨_, rest⟩, solid | solid⟩ := starts rfl
              · cases rest
                exact .inr (by simp [solid])
              · cases rest
                exact .inr (by simp [solid])
          | opened | running => exact .inl nofun
        obtain ⟨notBetween, charactersEq⟩ := takes rfl atHand
        rw [inductionHypothesis (fun between => absurd between notBetween)
          scannedRest, charactersEq]
        simp
      · exact absurd none isItem

/-- What goes on with the item at hand is added to its text. -/
theorem Reads.characters_eq
    (reads : cutting.Reads text depth state [] (.running begun inner bound))
    (relates : cutting.classOf mark = .relation)
    (starts : state = .between -> cutting.Begins text false) :
    characters begun = characters state.begun ++ text := by
  -- A symbol after the text is taken, so the scan ends with the item at hand.
  have scanned := reads 0 [mark]
  rw [map_nil_append, scan_of_relation relates] at scanned
  have whole := text_of_scan relates
    (fun between => (starts between).append [mark]) scanned
  have marked :
      characters begun ++ [mark] = characters state.begun ++ text ++ [mark] := by
    simpa [afterRelation] using whole
  exact List.append_cancel_right marked

/-- Laid out where an item may begin, the text makes value items that show the
labels, in order. The last one is still at hand. -/
def Shows
    (cutting : Segmentation)
    (labels : List (List Char))
    (text : List Char) : Prop :=
  ∀ depth state, state.IsStart -> ∃ items begun bound,
    cutting.Reads text depth state items (.running begun 0 bound) ∧
      (∀ item ∈ items, item.holdsValues = true) ∧
      List.Forall₂ (fun label item => label <:+: item.text.toList) labels
        (items ++ [itemOf begun])

variable {labels labels' : List (List Char)} {even : Prop} {brackets : Brackets}

namespace Shows

/-- A text that is laid out as one item is shown by it. -/
theorem of_lays
    (relates : cutting.classOf mark = .relation)
    (lays : cutting.Lays 1 even text)
    (holds : even)
    (begins : cutting.Begins text false) : cutting.Shows [text] text := by
  intro depth state start
  obtain ⟨items, begun, bound, reads, -, -, exact_iff⟩ := lays depth state start
  have none : items = [] :=
    List.length_eq_zero_iff.mp (Nat.succ_inj.mp (exact_iff.mp holds))
  subst none
  refine ⟨[], begun, bound, reads, nofun, .cons ?_ .nil⟩
  rw [text_itemOf, reads.characters_eq relates fun _ => begins]
  exact (List.suffix_append _ _).isInfix

/-- What joins is a part of the last item. -/
theorem append_joins
    (relates : cutting.classOf mark = .relation)
    (shows : cutting.Shows labels text)
    (joins : cutting.Joins text') : cutting.Shows labels (text ++ text') := by
  intro depth state start
  obtain ⟨items, middle, bound, reads, values, shown⟩ := shows depth state start
  obtain ⟨begun, reads'⟩ := joins depth (.running middle 0 bound)
  have both := reads.append reads'
  rw [List.append_nil] at both
  refine ⟨items, begun, bound, both, values, forall₂_change_last shown ?_⟩
  intro label inside
  rw [text_itemOf] at inside ⊢
  rw [reads'.characters_eq relates nofun]
  exact inside.trans (List.prefix_append _ _).isInfix

/-- Brackets around a text leave what its items show. -/
theorem enclosed
    (pair : cutting.IsPair brackets)
    (shows : cutting.Shows labels text) :
    cutting.Shows labels (enclosedText brackets text) := by
  intro depth state start
  have opened : (afterOpening state brackets.opening depth).IsStart := by
    cases state with
    | between | opened => trivial
    | running => cases start
  obtain ⟨items, begun, bound, reads, values, shown⟩ :=
    shows (depth + 1) _ opened
  have around := Reads.enclosed pair.opens pair.closes reads
  rw [afterClosing, List.append_nil] at around
  refine ⟨items, _, bound, around, values, forall₂_change_last shown ?_⟩
  intro label inside
  rw [text_itemOf] at inside ⊢
  rw [characters_append]
  exact inside.trans (List.prefix_append _ _).isInfix

/-- The item of an operator shows its character. -/
theorem mem_text_operatorItem (cutting : Segmentation) (c : Char) :
    [c] <:+: (cutting.operatorItem c).text.toList := by
  rw [operatorItem]
  split
  · exact ⟨[' '], [' '], by simp⟩
  · exact ⟨[], [], by simp⟩

/-- An operator in front is shown by an item of its own. -/
theorem operator
    (operates : cutting.classOf c = .operator)
    (shows : cutting.Shows labels text) :
    cutting.Shows ([c] :: labels) (c :: text) := by
  intro depth state start
  have after : ∃ item, cutting.afterOperator state c = ([item], .between) ∧
      item.holdsValues = true ∧ [c] <:+: item.text.toList := by
    cases state with
    | between =>
        exact ⟨_, rfl, holdsValues_operatorItem cutting c,
          mem_text_operatorItem cutting c⟩
    | opened begun => exact ⟨_, rfl, rfl, ⟨characters begun, [], by simp⟩⟩
    | running => cases start
  obtain ⟨item, after, isValue, shownItem⟩ := after
  have read := Reads.operator operates depth state
  rw [after] at read
  obtain ⟨items, begun, bound, reads, values, shown⟩ :=
    shows depth .between trivial
  exact ⟨[item] ++ items, begun, bound, read.append reads,
    List.forall_mem_append.mpr ⟨List.forall_mem_singleton.mpr isValue, values⟩,
    .cons shownItem shown⟩

/-- An operator between two texts is shown by an item of its own. -/
theorem spaced
    {operated : Bool}
    (shows : cutting.Shows labels text)
    (operates : cutting.classOf c = .operator)
    (begins : cutting.Begins text' operated)
    (shows' : cutting.Shows labels' text') :
    cutting.Shows (labels ++ [c] :: labels') (text ++ ' ' :: c :: ' ' :: text') := by
  intro depth state start
  obtain ⟨items, middle, met, reads, values, shown⟩ := shows depth state start
  obtain ⟨items', begun, bound, reads', values', shown'⟩ :=
    shows' depth .between trivial
  have readRight := (Reads.operator operates depth .between).append
    (reads'.space_between begins)
  have both := reads.append
    (readRight.space_ends ⟨c, ⟨_, rfl⟩, operates⟩ middle met)
  refine ⟨_, begun, bound, both, ?_, ?_⟩
  · simp only [List.forall_mem_append, List.forall_mem_cons]
    exact ⟨values, rfl, (afterOperator_settles cutting .between c).2, values'⟩
  · have all := List.rel_append shown
      (.cons (mem_text_operatorItem cutting c) shown')
    simpa [afterOperator] using all

end Shows
end Segmentation
end SymbolicLogic
