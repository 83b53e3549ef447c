import SymbolicLogic.Proofs.Header.Markup
import SymbolicLogic.Proofs.Outcome

/-!
# Nothing is lost when text is cut

Text that has no unmatched bracket is cut into items which show all of it but its
blanks. Brackets are shaded by depth, so that the two brackets of a pair look alike.
-/

namespace SymbolicLogic
namespace Segmentation

/-- Every bracket that is opened is closed, and none is closed before it has been
opened. -/
structure Balanced (cutting : Segmentation) (text : List Char) : Prop where
  opened : ∀ front, front <+: text -> cutting.closings front ≤ cutting.openings front
  settled : cutting.closings text = cutting.openings text

/-- The character behind the text stands inside `depth` brackets: those that were
opened in front of it, and are closed neither in front of it nor by it. -/
def IsInside
    (cutting : Segmentation)
    (depth : Nat)
    (front : List Char)
    (c : Char) : Prop :=
  depth + cutting.closings (front ++ [c]) = cutting.openings front

/-- The items show the text, but for its blanks, with brackets shaded by depth. -/
structure IsHeader
    (cutting : Segmentation)
    (text : List Char)
    (items : List HeaderItem) : Prop where
  /-- The items have the solid characters of the text. -/
  solid_eq : Text.solid (items.flatMap (·.text.toList)) = Text.solid text
  /-- Every item has one of them. -/
  nonempty : ∀ item ∈ items, Text.solid item.text.toList ≠ []
  /-- A bracket of the items is one of the text, with the style of its depth. -/
  shaded : ∀ before style c after,
    items.flatMap (·.marks) = before ++ (style, c) :: after ->
    cutting.IsOpening c ∨ cutting.IsClosing c ->
    ∃ front rest depth, text = front ++ c :: rest ∧
      Text.solid front = Text.solid (before.map Prod.snd) ∧
      cutting.IsInside depth front c ∧ style = .ofDepth depth
  /-- A bracket looks like the one that closes it. -/
  alike : ∀ before opening inner closing after style style',
    items.flatMap (·.marks) =
      before ++ (style, opening) :: inner ++ (style', closing) :: after ->
    cutting.IsOpening opening -> cutting.IsClosing closing ->
    cutting.Balanced (inner.map Prod.snd) -> style' = style

variable {cutting : Segmentation} {text : List Char} {items : List HeaderItem}

/-- Characters of a kind that is never blank are counted without the blanks. -/
theorem countP_solid
    {kind : Char -> Prop}
    [DecidablePred kind]
    (solid : ∀ c, kind c -> Text.isBlank c = false)
    (text : List Char) : (Text.solid text).countP (kind ·) = text.countP (kind ·) := by
  rw [Text.solid, List.countP_filter]
  refine List.countP_congr fun c _ => ?_
  simp only [Bool.and_eq_true, decide_eq_true_eq, Bool.not_eq_true']
  exact and_iff_left_of_imp (solid c)

theorem closings_solid (cutting : Segmentation) (text : List Char) :
    cutting.closings (Text.solid text) = cutting.closings text :=
  countP_solid (fun _ => And.left) text

theorem openings_solid (cutting : Segmentation) (text : List Char) :
    cutting.openings (Text.solid text) = cutting.openings text :=
  countP_solid (fun _ => And.left) text

/-- Blanks do not change the depth of a character. -/
theorem isInside_congr
    {front shown : List Char}
    (same : Text.solid front = Text.solid shown)
    (depth : Nat)
    (c : Char) :
    cutting.IsInside depth front c ↔ cutting.IsInside depth shown c := by
  rw [IsInside, IsInside, closings_append, closings_append,
    ← closings_solid cutting front, ← openings_solid cutting front, same,
    closings_solid, openings_solid]

/-- Where the text between is balanced, the opening bracket in front of it is the last
one that is open. -/
theorem IsInside.add_closings_of_balanced
    {front inner : List Char}
    {opening c : Char}
    {depth depth' : Nat}
    (opens : cutting.IsOpening opening)
    (balanced : cutting.Balanced inner)
    (inside : cutting.IsInside depth front opening)
    (inside' : cutting.IsInside depth' (front ++ opening :: inner) c) :
    depth' + cutting.closings [c] = depth + 1 := by
  have settled := balanced.settled
  simp only [IsInside, closings_append, openings_append] at inside inside'
  rw [closings_cons opening, openings_cons opening, closings_of_isOpening opens,
    openings_of_isOpening opens] at inside'
  rw [closings_of_isOpening opens] at inside
  omega

/-- A bracket has as many brackets around it as the one that closes it. -/
theorem IsInside.eq_of_balanced
    {front inner : List Char}
    {opening closing : Char}
    {depth depth' : Nat}
    (opens : cutting.IsOpening opening)
    (closes : cutting.IsClosing closing)
    (balanced : cutting.Balanced inner)
    (inside : cutting.IsInside depth front opening)
    (inside' : cutting.IsInside depth' (front ++ opening :: inner) closing) :
    depth' = depth := by
  have outside := inside.add_closings_of_balanced opens balanced inside'
  rw [closings_of_isClosing closes] at outside
  exact Nat.succ.inj outside

theorem toList_flatMap_text (items : List HeaderItem) :
    items.flatMap (·.text.toList) = (items.flatMap (·.marks)).map Prod.snd := by
  rw [List.map_flatMap]
  exact congrArg (items.flatMap ·) (funext fun item => item.map_marks.symm)

/-- The bracket at hand in the items is one of the text, at its depth. -/
theorem exists_of_marks
    {before after : List (Style × Char)}
    {style : Style}
    {c : Char}
    (scanned : cutting.scan 0 0 .between text = .ok items)
    (marked : items.flatMap (·.marks) = before ++ (style, c) :: after)
    (bracket : cutting.IsOpening c ∨ cutting.IsClosing c) :
    ∃ front rest depth, text = front ++ c :: rest ∧
      Text.solid front = Text.solid (before.map Prod.snd) ∧
      cutting.IsInside depth front c ∧ style = .ofDepth depth := by
  have solid : Text.isBlank c = false := bracket.elim And.left And.left
  have markupEq := solidMarks_of_scan scanned
  rw [marked, solidMarks_append, solidMarks_of_solid solid] at markupEq
  obtain ⟨front, rest, depth, textEq, solidEq, styleEq, inside⟩ :=
    exists_of_markup_eq (not_isUnmatched_of_scan scanned) markupEq.symm bracket
  rw [map_solidMarks] at solidEq
  exact ⟨front, rest, depth, textEq, solidEq, inside.trans (Nat.zero_add _), styleEq⟩

/-- A text that is cut has its items as header. -/
theorem isHeader_of_scan
    (scanned : cutting.scan 0 0 .between text = .ok items) :
    cutting.IsHeader text items where
  solid_eq := by
    rw [toList_flatMap_text, ← map_solidMarks, solidMarks_of_scan scanned]
    exact map_markup cutting 0 text
  nonempty := by
    intro item member empty
    rw [← item.map_marks, ← map_solidMarks, List.map_eq_nil_iff] at empty
    exact solid_of_scan scanned (fun absent => absurd rfl absent) item member empty
  shaded := fun before style c after marked bracket =>
    exists_of_marks scanned marked bracket
  alike := by
    intro before opening inner closing after style style' marked opens closes balanced
    obtain ⟨front, -, depth, -, frontEq, inside, rfl⟩ :=
      exists_of_marks scanned (by simpa using marked) (.inl opens)
    obtain ⟨front', -, depth', -, frontEq', inside', rfl⟩ :=
      exists_of_marks scanned marked (.inr closes)
    rw [isInside_congr frontEq] at inside
    rw [isInside_congr frontEq', List.map_append, List.map_cons] at inside'
    rw [inside.eq_of_balanced opens closes balanced inside']

/-- Cutting a text fails exactly if some closing bracket has nothing to close, and the
first such bracket is reported. Otherwise nothing but blanks is lost, no item is
empty, and brackets are shaded by depth. -/
theorem items_lossless (cutting : Segmentation) (text : String) :
    ((∃ error, cutting.items text = .error error) ↔
      ∃ place, cutting.IsUnmatched 0 text.toList place) ∧
    (∀ error, cutting.items text = .error error ->
      error.text = text ∧ cutting.IsUnmatched 0 text.toList error.position ∧
        ∀ place < error.position, ¬cutting.IsUnmatched 0 text.toList place) ∧
    ∀ items, cutting.items text = .ok items ->
      cutting.IsHeader text.toList items := by
  rw [Segmentation.items]
  cases scanned : cutting.scan 0 0 .between text.toList with
  | ok items =>
      have matched := not_isUnmatched_of_scan scanned
      refine ⟨iff_of_false nofun fun ⟨place, unmatched⟩ => matched place unmatched,
        nofun, ?_⟩
      rintro _ ⟨⟩
      exact isHeader_of_scan scanned
  | error position =>
      obtain ⟨place, positionEq, unmatched, first⟩ := scan_eq_error_iff.mp scanned
      obtain rfl : position = place := positionEq.trans (Nat.zero_add place)
      refine ⟨iff_of_true ⟨_, rfl⟩ ⟨position, unmatched⟩, ?_, nofun⟩
      rintro _ ⟨⟩
      exact ⟨rfl, unmatched, first⟩

/-- In `((P) ∧ Q)` the brackets around the letter look alike. In `(P))` the last
bracket closes nothing. -/
theorem items_lossless_nested :
    (∃ items before style style' after,
      Language.sentential.segmentation.items "((P) ∧ Q)" = .ok items ∧
      Language.sentential.segmentation.IsHeader "((P) ∧ Q)".toList items ∧
      items.flatMap (·.marks) =
        before ++ (style, '(') :: [(.plain, 'P')] ++ (style', ')') :: after ∧
      style' = style) ∧
    ∃ error, Language.sentential.segmentation.items "(P))" = .error error ∧
      error.position = 3 ∧
      Language.sentential.segmentation.IsUnmatched 0 "(P))".toList 3 := by
  have cut : succeedsWith (Language.sentential.segmentation.items "((P) ∧ Q)")
      (fun items => decide (items.flatMap (·.marks) =
        [(.ofDepth 0, '('), (.ofDepth 1, '('), (.plain, 'P'), (.ofDepth 1, ')'),
          (.plain, ' '), (.operator, '∧'), (.plain, ' '), (.plain, 'Q'),
          (.ofDepth 0, ')')])) = true := by
    decide +kernel
  have torn : failsWith (Language.sentential.segmentation.items "(P))")
      (fun error => error.position == 3) = true := by
    decide +kernel
  obtain ⟨items, itemsEq, marked⟩ := exists_of_succeedsWith cut
  obtain ⟨error, errorEq, position⟩ := exists_of_failsWith torn
  have balanced : Language.sentential.segmentation.Balanced ['P'] :=
    { opened := fun front inside => by
        have none : Language.sentential.segmentation.closings front ≤ 0 :=
          inside.sublist.countP_le
        exact none.trans (Nat.zero_le _)
      settled := by decide +kernel }
  have header := (items_lossless _ _).2.2 items itemsEq
  have marksEq := of_decide_eq_true marked
  refine ⟨⟨items, [(.ofDepth 0, '(')], .ofDepth 1, .ofDepth 1, _, itemsEq, header,
    marksEq, header.alike [(.ofDepth 0, '(')] '(' [(.plain, 'P')] ')' _ _ _ marksEq
      (by decide +kernel) (by decide +kernel) balanced⟩, error, errorEq, ?_, ?_⟩
  · exact beq_iff_eq.mp position
  · have unmatched := ((items_lossless _ _).2.1 error errorEq).2.1
    rwa [beq_iff_eq.mp position] at unmatched

end Segmentation
end SymbolicLogic
