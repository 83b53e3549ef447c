import SymbolicLogic.Proofs.Header.Lossless
import SymbolicLogic.Proofs.Rendering.Lexing
import SymbolicLogic.Proofs.Token.Cutting

/-!
# The blanks of renderings

No symbol that was read from a text holds a blank, so the blanks of a rendering are those
that it puts between symbols, which are spaces. The same holds of header items: what is
blank in them comes from the rendering, or is a space at the side of an operator. So
neither has a line break, whatever characters the text and the language have.
-/

namespace SymbolicLogic

/-- The only blanks of the text are spaces. -/
def Text.IsSpaced (text : List Char) : Prop :=
  ∀ c ∈ text, Text.isBlank c = true -> c = ' '

/-- A text whose blanks are spaces has no line ends. -/
theorem Text.IsSpaced.not_mem_newline
    {text : List Char}
    (spaced : Text.IsSpaced text) : '\n' ∉ text :=
  fun member => absurd (spaced _ member (by decide)) (by decide)

namespace Language

variable {language : Language} {text : String} {tokens : List Token} {token : Token}

/-- A token that was cut from a text has no blank. -/
theorem solid_of_mem_tokens
    (lexes : language.tokens text = .ok tokens)
    (member : token ∈ tokens) :
    ∀ c ∈ token.text.toList, Text.isBlank c = false := by
  obtain ⟨lexemes, cuts, texts⟩ := exists_cuts_of_tokens lexes
  intro c inside
  have shown : c ∈ tokens.flatMap (·.text.toList) :=
    List.mem_flatMap.mpr ⟨token, member, inside⟩
  rw [flatMap_text_of_forall₂ texts, ← Lexeme.cuts_iff.mp cuts,
    Lexeme.characters_ofText] at shown
  simpa using (List.mem_filter.mp shown).2

/-- A token without blanks is laid out with spaces around it. -/
theorem isSpaced_layout (solid : ∀ c ∈ token.text.toList, Text.isBlank c = false) :
    Text.IsSpaced token.layout := by
  have own (present : Bool) : ∀ c ∈ Token.blank present, c = ' ' := by
    cases present <;> simp [Token.blank]
  intro c member blank
  rw [Token.layout] at member
  rcases List.mem_append.mp member with member | member
  · rcases List.mem_append.mp member with member | member
    · exact own _ c member
    · rw [solid c member] at blank
      cases blank
  · exact own _ c member

/-- The only blanks of what was read and is written again are spaces. -/
theorem isSpaced_of_parseFormula
    {whole : Formula}
    (read : language.parseFormula text = .ok whole) :
    Text.IsSpaced whole.text.toList := by
  obtain ⟨tokens, lexes⟩ := exists_tokens_of_parseBy read
  obtain ⟨derivation, -⟩ := (parseFormula_eq_ok_iff lexes).mp read
  obtain ⟨tokens', -, squared, writes⟩ := rewritten_sentence derivation
  have solid : ∀ token ∈ tokens', ∀ c ∈ token.text.toList, Text.isBlank c = false := by
    refine squared.forall_mem (fun _ => ?_) fun _ => solid_of_mem_tokens lexes
    simp only [Token.text, String.toList_singleton, List.forall_mem_singleton]
    decide
  intro c member
  have written : whole.text.toList = tokens'.flatMap Token.layout := writes 0
  rw [written] at member
  obtain ⟨token, placed, inside⟩ := List.mem_flatMap.mp member
  exact isSpaced_layout (solid token placed) c inside

end Language

namespace Segmentation

variable {cutting : Segmentation} {depth position : Nat} {state : State} {c : Char}
  {rest text : List Char} {items : List HeaderItem} {mark : Style × Char}

theorem mem_marks_operatorItem (member : mark ∈ (cutting.operatorItem c).marks) :
    mark.2 = c ∨ mark.2 = ' ' := by
  rw [operatorItem] at member
  split at member
  · simp only [marks_itemOf, TextRun.marks_glyph, TextRun.marks_nil, List.mem_cons,
      List.not_mem_nil, or_false] at member
    rcases member with rfl | rfl | rfl
    · exact .inr rfl
    · exact .inl rfl
    · exact .inr rfl
  · simp only [marks_itemOf, TextRun.marks_glyph, TextRun.marks_nil, List.mem_cons,
      List.not_mem_nil, or_false] at member
    exact .inl (congrArg Prod.snd member)

/-- An operator adds spaces at most. -/
theorem mem_shown_afterOperator (member : mark ∈ shown (cutting.afterOperator state c)) :
    mark ∈ TextRun.marks state.begun ∨ mark.2 = c ∨ mark.2 = ' ' := by
  cases state with
  | between =>
      have own : mark ∈ (cutting.operatorItem c).marks := by
        simpa [shown, afterOperator, State.begun] using member
      exact .inr (mem_marks_operatorItem own)
  | opened begun =>
      have own : mark ∈ TextRun.marks begun ∨ mark = (.operator, c) := by
        simpa [shown, afterOperator, State.begun] using member
      exact own.imp_right fun same => .inl (congrArg Prod.snd same)
  | running begun inner bound =>
      rw [afterOperator] at member
      split at member
      · have own : mark ∈ TextRun.marks begun ∨ mark = (.operator, c) := by
          simpa [shown, State.begun] using member
        exact own.imp_right fun same => .inl (congrArg Prod.snd same)
      · have own : mark ∈ TextRun.marks begun ∨
            mark ∈ (cutting.operatorItem c).marks := by
          simpa [shown, State.begun] using member
        exact own.imp_right mem_marks_operatorItem

theorem mem_shown_afterSpace
    {next : Option GlyphClass}
    (member : mark ∈ shown (afterSpace state c next)) :
    mark ∈ TextRun.marks state.begun ∨ mark.2 = c := by
  have kept {begun : List TextRun}
      (member : mark ∈ TextRun.marks begun ∨ mark = (.plain, c)) :
      mark ∈ TextRun.marks begun ∨ mark.2 = c :=
    member.imp_right (congrArg Prod.snd)
  cases state with
  | between => simp [shown, afterSpace, State.begun] at member
  | opened begun =>
      rw [afterSpace] at member
      split at member
      · exact .inl (by simpa [shown, State.begun] using member)
      · exact kept (by simpa [shown, State.begun] using member)
  | running begun inner bound =>
      rw [afterSpace] at member
      split at member
      · exact kept (by simpa [shown, State.begun] using member)
      · exact .inl (by simpa [shown, State.begun] using member)

/-- What a step shows was there before, or is the character that was read, or a space at
the side of an operator. -/
theorem mem_shown_step (member : mark ∈ shown (cutting.step depth state c rest)) :
    mark ∈ TextRun.marks state.begun ∨ mark.2 = c ∨ mark.2 = ' ' := by
  have added {style : Style}
      (member : mark ∈ TextRun.marks state.begun ++ [(style, c)]) :
      mark ∈ TextRun.marks state.begun ∨ mark.2 = c ∨ mark.2 = ' ' :=
    (List.mem_append.mp member).imp_right fun new =>
      .inl (congrArg Prod.snd (List.mem_singleton.mp new))
  rw [step] at member
  cases kind : cutting.classOf c with
  | opening =>
      rw [kind, shown_afterOpening] at member
      exact added member
  | closing =>
      rw [kind, shown_afterClosing] at member
      exact added member
  | relation =>
      rw [kind, shown_afterRelation] at member
      exact added member
  | operator =>
      rw [kind] at member
      exact mem_shown_afterOperator member
  | space =>
      rw [kind] at member
      exact (mem_shown_afterSpace member).imp_right .inl

/-- What the items show was read before, or is a character of the text, or a space. -/
theorem mem_marks_of_scan
    (scanned : cutting.scan position depth state text = .ok items) :
    ∀ mark ∈ items.flatMap (·.marks),
      mark ∈ TextRun.marks state.begun ∨ mark.2 ∈ text ∨ mark.2 = ' ' := by
  refine scanInduction (motive := fun _ state text items =>
    ∀ mark ∈ items.flatMap (·.marks),
      mark ∈ TextRun.marks state.begun ∨ mark.2 ∈ text ∨ mark.2 = ' ') ?_ ?_ scanned
  · intro depth state mark member
    cases state with
    | between => cases member
    | opened begun | running begun inner bound =>
        exact .inl (by simpa [State.finished, State.begun] using member)
  · intro depth state c rest others ofRest mark member
    have ofStep : mark ∈ shown (cutting.step depth state c rest) ->
        mark ∈ TextRun.marks state.begun ∨ mark.2 ∈ c :: rest ∨ mark.2 = ' ' :=
      fun member => (mem_shown_step member).imp_right <|
        .imp_left fun same : mark.2 = c => same ▸ List.mem_cons_self
    rw [List.flatMap_append] at member
    rcases List.mem_append.mp member with made | later
    · exact ofStep (List.mem_append_left _ made)
    · rcases ofRest mark later with begun | new | space
      · exact ofStep (List.mem_append_right _ begun)
      · exact .inr (.inl (List.mem_cons_of_mem _ new))
      · exact .inr (.inr space)

/-- The items of a text whose blanks are spaces have no other blanks either. -/
theorem isSpaced_of_items
    {text : String}
    (cut : cutting.items text = .ok items)
    (spaced : Text.IsSpaced text.toList) :
    ∀ item ∈ items, Text.IsSpaced item.text.toList := by
  rw [Segmentation.items] at cut
  split at cut
  · next scanned =>
      cases cut
      intro item placed c member blank
      rw [← item.map_marks, List.mem_map] at member
      obtain ⟨mark, inItem, rfl⟩ := member
      rcases mem_marks_of_scan scanned mark (List.mem_flatMap.mpr ⟨item, placed, inItem⟩)
        with begun | inText | space
      · cases begun
      · exact spaced _ inText blank
      · exact space
  · cases cut

end Segmentation
end SymbolicLogic
