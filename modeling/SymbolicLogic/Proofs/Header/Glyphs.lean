import SymbolicLogic.Proofs.Header.Runs
import SymbolicLogic.Proofs.Token.Spelling

/-!
# The notation of a language in headers

In a valid language the part a glyph plays in a header follows from its use. The
tokens of the language are words, brackets, operators or binders there.
-/

namespace SymbolicLogic

/-- The part in a header of a glyph with the given use. -/
def GlyphUse.glyphClass : GlyphUse -> GlyphClass
  | .opening => .opening
  | .closing => .closing
  | .negation | .connective _ => .operator
  | _ => .relation

/-- The glyph belongs to a symbol that is neither an operator nor a binder. -/
def GlyphUse.isWord : GlyphUse -> Bool
  | .quantifier _ => false
  | use => use.glyphClass = .relation

/-- The token is a symbol or a mark that is neither an operator nor a binder. -/
def Token.isWord (token : Token) : Bool :=
  match token.use? with
  | some use => use.isWord
  | none => true

namespace Language

variable {language : Language} {c : Char} {token : Token}

theorem any_opening_iff :
    (language.segmentation.brackets.any fun pair => pair.opening = c) = true ↔
      language.Uses c .opening := by
  simp [segmentation, Uses]

theorem any_closing_iff :
    (language.segmentation.brackets.any fun pair => pair.closing = c) = true ↔
      language.Uses c .closing := by
  simp [segmentation, Uses]

theorem isUnary_iff :
    language.segmentation.operators.isUnary c = true ↔
      language.Uses c .negation := by
  simp [segmentation, operatorSet, OperatorSet.isUnary, Uses]

/-- Operators are the glyphs of negations and connectives. -/
theorem contains_iff :
    language.segmentation.operators.contains c = true ↔
      language.Uses c .negation ∨
        ∃ connective, language.Uses c (.connective connective) := by
  rw [OperatorSet.contains, Bool.or_eq_true, isUnary_iff]
  simp only [segmentation, operatorSet, OperatorSet.isBinary,
    List.contains_iff_mem, List.mem_flatMap, Uses]
  constructor
  · rintro (negates | ⟨connective, -, member⟩)
    · exact .inl negates
    · exact .inr ⟨connective, member⟩
  · rintro (negates | ⟨connective, member⟩)
    · exact .inl negates
    · exact .inr ⟨connective, connective.mem_all, member⟩

theorem isBinder_iff :
    language.segmentation.operators.isBinder c = true ↔
      ∃ quantifier, language.Uses c (.quantifier quantifier) := by
  simp only [segmentation, operatorSet, OperatorSet.isBinder,
    List.contains_iff_mem, List.mem_append]
  constructor
  · rintro (member | member)
    · exact ⟨.universal, member⟩
    · exact ⟨.existential, member⟩
  · rintro ⟨quantifier, member⟩
    cases quantifier with
    | universal => exact .inl member
    | existential => exact .inr member

/-- What is neither blank nor a bracket nor an operator is written as it is. -/
theorem classOf_eq_relation
    (solid : Text.isBlank c = false)
    (uses : ∀ use, language.Uses c use -> use.glyphClass = .relation) :
    language.segmentation.classOf c = .relation := by
  rw [Segmentation.classOf, if_neg (by simp [solid]), if_neg, if_neg, if_neg]
  · rw [contains_iff]
    rintro (used | ⟨connective, used⟩)
    · cases uses _ used
    · cases uses _ used
  · rw [any_closing_iff]
    intro used
    cases uses _ used
  · rw [any_opening_iff]
    intro used
    cases uses _ used

/-- What is no glyph of the language is written as it is. -/
theorem isWord_of_unused
    (solid : Text.isBlank c = false)
    (unused : ∀ use, ¬language.Uses c use) :
    language.segmentation.classOf c = .relation ∧
      language.segmentation.operators.isBinder c = false := by
  refine ⟨classOf_eq_relation solid fun use used => absurd used (unused use),
    ?_⟩
  rw [← Bool.not_eq_true, isBinder_iff]
  rintro ⟨quantifier, used⟩
  exact unused _ used

section

variable (valid : language.validate = .ok ())

include valid

/-- A glyph that is used is no blank. -/
theorem not_isBlank_of_uses
    {use : GlyphUse}
    (used : language.Uses c use) : Text.isBlank c = false := by
  have free := not_isReserved valid used
  rw [isReserved, Bool.or_eq_false_iff] at free
  exact free.2

/-- The use of a glyph gives its part in a header. -/
theorem classOf_of_uses
    {use : GlyphUse}
    (used : language.Uses c use) :
    language.segmentation.classOf c = use.glyphClass := by
  have solid := not_isBlank_of_uses valid used
  have only {use' : GlyphUse} (used' : language.Uses c use') : use' = use :=
    use_unique valid used' used
  cases kind : use.glyphClass with
  | relation =>
      apply classOf_eq_relation solid
      intro use' used'
      rw [only used', kind]
  | opening =>
      rw [Segmentation.classOf, if_neg (by simp [solid]), if_pos]
      rw [any_opening_iff]
      cases use <;> first | exact used | cases kind
  | closing =>
      rw [Segmentation.classOf, if_neg (by simp [solid]), if_neg, if_pos]
      · rw [any_closing_iff]
        cases use <;> first | exact used | cases kind
      · rw [any_opening_iff]
        intro used'
        rw [← only used'] at kind
        cases kind
  | operator =>
      rw [Segmentation.classOf, if_neg (by simp [solid]), if_neg, if_neg,
        if_pos]
      · rw [contains_iff]
        cases use <;> first | exact .inl used | exact .inr ⟨_, used⟩ | cases kind
      · rw [any_closing_iff]
        intro used'
        rw [← only used'] at kind
        cases kind
      · rw [any_opening_iff]
        intro used'
        rw [← only used'] at kind
        cases kind
  | space => cases use <;> cases kind

/-- Glyphs of words are neither operators nor binders. -/
theorem isWord_of_uses
    {use : GlyphUse}
    (used : language.Uses c use)
    (word : use.isWord = true) :
    language.segmentation.classOf c = .relation ∧
      language.segmentation.operators.isBinder c = false := by
  have notBinder : language.segmentation.operators.isBinder c = false := by
    rw [← Bool.not_eq_true, isBinder_iff]
    rintro ⟨quantifier, used'⟩
    cases use_unique valid used used'
    cases word
  refine ⟨?_, notBinder⟩
  rw [classOf_of_uses valid used]
  cases use <;> first | rfl | cases word

end

/-- A token that takes no index is a single glyph. -/
theorem exists_glyph
    (known : language.HasToken token)
    {use : GlyphUse}
    (use_eq : token.use? = some use)
    (noWord : use.isWord = false) :
    ∃ c, token.text.toList = [c] ∧ language.Uses c use := by
  obtain ⟨lexeme, -, found⟩ := known
  obtain ⟨provides, text_eq⟩ := provides_of_classify found
  rw [Provides, use_eq] at provides
  refine ⟨lexeme.glyph, ?_, provides⟩
  rw [text_eq, Lexeme.text, String.toList_ofList, Lexeme.characters]
  unfold classify at found
  split at found
  · split at found
    · next plain => rw [List.isEmpty_iff.mp plain]
    · cases found
  · split at found
    · next indexed =>
        cases found
        simp only [indexedToken?] at indexed
        repeat' split at indexed
        all_goals cases indexed
        all_goals
          cases use_eq
          cases noWord
    · cases found

section

variable (valid : language.validate = .ok ()) (plain : language.IndexFree)

include valid

theorem isWord_of_mem_reservedGlyphs (reserved : c ∈ reservedGlyphs) :
    language.segmentation.classOf c = .relation ∧
      language.segmentation.operators.isBinder c = false := by
  have solid : ∀ mark ∈ reservedGlyphs, Text.isBlank mark = false := by
    simp [reservedGlyphs, Text.isBlank, Text.blankRanges]
  exact isWord_of_unused (solid c reserved)
    (not_uses_of_mem_reservedGlyphs valid reserved)

/-- The brackets of a pair are brackets in a header. -/
theorem isPair_of_hasBrackets
    {brackets : Brackets}
    (known : language.HasBrackets brackets) :
    language.segmentation.IsPair brackets := by
  obtain ⟨knownOpening, knownClosing⟩ := known
  obtain ⟨opening, openingEq, opens⟩ := exists_glyph knownOpening rfl rfl
  obtain ⟨closing, closingEq, closes⟩ := exists_glyph knownClosing rfl rfl
  simp only [Token.text, String.toList_singleton] at openingEq closingEq
  cases openingEq
  cases closingEq
  exact ⟨classOf_of_uses valid opens, classOf_of_uses valid closes⟩

include plain

/-- The text of a symbol, with its index, is a word. -/
theorem isWord_of_hasToken
    (known : language.HasToken token)
    (word : token.isWord = true) :
    language.segmentation.IsWord token.text.toList := by
  obtain ⟨lexeme, indexes, found⟩ := known
  obtain ⟨provides, text_eq⟩ := provides_of_classify found
  rw [text_eq, Lexeme.text, String.toList_ofList, Lexeme.characters]
  refine ⟨List.cons_ne_nil _ _, fun c member => ?_⟩
  rcases List.mem_cons.mp member with rfl | member
  · unfold Provides at provides
    unfold Token.isWord at word
    split at provides
    · next use use_eq =>
        rw [use_eq] at word
        exact isWord_of_uses valid provides word
    · exact isWord_of_mem_reservedGlyphs valid provides
  · have isIndex := indexes c member
    apply isWord_of_unused (Lexeme.isBlank_of_isIndex isIndex)
    intro use used
    have noIndex := plain _ ((mem_glyphUses_iff language c use).mpr used)
    rw [isIndex] at noIndex
    cases noIndex

end
end Language
end SymbolicLogic
