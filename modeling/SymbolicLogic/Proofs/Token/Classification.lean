import SymbolicLogic.Proofs.Language.Validity
import SymbolicLogic.Token.Basic

/-!
# The tokens of a language

A lexeme is a token when its glyph is used for that kind of token, or is one of
the marks that every language shares. The text of the token is that of the
lexeme. Conversely a glyph of a valid language that is used for brackets is a
token of just that pair.
-/

namespace SymbolicLogic

namespace Token

/-- What the glyph of a token is used as; none for the four shared marks. -/
def use? : Token -> Option GlyphUse
  | .opening _ => some .opening
  | .closing _ => some .closing
  | .comma | .slash | .caret | .underscore => none
  | .negation _ => some .negation
  | .connective _ kind => some (.connective kind)
  | .quantifier _ kind => some (.quantifier kind)
  | .divider _ => some .divider
  | .infixRelation _ => some .infixRelation
  | .complement _ _ => some .complement
  | .infixFunction _ => some .infixFunction
  | .letter _ => some .letter
  | .constant _ => some .constant
  | .objectVariable _ => some .objectVariable
  | .function _ => some .function
  | .formulaMeta _ => some .formulaMeta
  | .termMeta _ => some .termMeta
  | .variableMeta _ => some .variableMeta
  | .anyMeta _ => some .anyMeta

end Token

namespace Language

variable {language : Language} {lexeme : Lexeme} {token : Token}

/-- The glyph is used as the token needs it to be. -/
def Provides (language : Language) (glyph : Char) (token : Token) : Prop :=
  match token.use? with
  | some use => language.Uses glyph use
  | none => glyph ∈ reservedGlyphs

theorem opening?_eq_some
    {glyph : Char}
    {brackets : Brackets}
    (found : language.opening? glyph = some brackets) :
    brackets ∈ language.brackets ∧ brackets.opening = glyph :=
  ⟨List.mem_of_find?_eq_some found, by simpa using List.find?_some found⟩

theorem closing?_eq_some
    {glyph : Char}
    {brackets : Brackets}
    (found : language.closing? glyph = some brackets) :
    brackets ∈ language.brackets ∧ brackets.closing = glyph :=
  ⟨List.mem_of_find?_eq_some found, by simpa using List.find?_some found⟩

/-- A token that is found by one character is provided by it, and is written as it. -/
theorem provides_of_fixedToken?
    {glyph : Char}
    (found : language.fixedToken? glyph = some token) :
    language.Provides glyph token ∧ token.text = String.singleton glyph := by
  unfold fixedToken? at found
  repeat' split at found
  all_goals cases found
  · next brackets opens =>
      obtain ⟨member, rfl⟩ := opening?_eq_some opens
      exact ⟨⟨brackets, member, rfl⟩, rfl⟩
  · next brackets closes =>
      obtain ⟨member, rfl⟩ := closing?_eq_some closes
      exact ⟨⟨brackets, member, rfl⟩, rfl⟩
  · next negates => exact ⟨List.contains_iff_mem.mp negates, rfl⟩
  · next kind connects =>
      have matched := List.find?_some
        (p := fun kind => (language.glyphs kind).contains glyph) connects
      exact ⟨List.contains_iff_mem.mp matched, rfl⟩
  · next kind quantifies =>
      refine ⟨?_, rfl⟩
      unfold quantifier? at quantifies
      repeat' split at quantifies
      all_goals cases quantifies
      all_goals simp_all [Provides, Token.use?, Uses]
  · next divides => exact ⟨divides, rfl⟩
  · next relates =>
      obtain ⟨relation, related⟩ := Option.isSome_iff_exists.mp relates
      exact ⟨⟨relation, List.mem_of_find?_eq_some related,
        by simpa using List.find?_some related⟩, rfl⟩
  · next relation complements =>
      exact ⟨⟨relation, List.mem_of_find?_eq_some complements,
        by simpa using List.find?_some complements⟩, rfl⟩
  · next operates => exact ⟨List.contains_iff_mem.mp operates, rfl⟩
  all_goals
    subst glyph
    exact ⟨by simp [Provides, Token.use?, reservedGlyphs], rfl⟩

/-- A glyph that is used for nothing is one of the shared marks, or no token. -/
theorem fixedToken?_of_unused
    {glyph : Char}
    (unused : ∀ use, ¬language.Uses glyph use) :
    language.fixedToken? glyph =
      if glyph = ',' then some .comma
      else if glyph = '/' then some .slash
      else if glyph = '^' then some .caret
      else if glyph = '_' then some .underscore
      else none := by
  cases found : language.fixedToken? glyph with
  | none =>
      unfold fixedToken? at found
      repeat' split at found
      all_goals cases found
      simp_all
  | some token =>
      have provides := (provides_of_fixedToken? found).1
      unfold Provides at provides
      split at provides
      · exact absurd provides (unused _)
      · next mark =>
          unfold fixedToken? at found
          repeat' split at found
          all_goals cases found
          all_goals simp_all [Token.use?]

/-- A token that takes an index is provided by its glyph, and is written with the index. -/
theorem provides_of_indexedToken?
    (found : language.indexedToken? lexeme = some token) :
    language.Provides lexeme.glyph token ∧ token.text = lexeme.text := by
  simp only [indexedToken?] at found
  repeat' split at found
  all_goals cases found
  all_goals exact ⟨List.contains_iff_mem.mp (by assumption), rfl⟩

/-- A token has the text of its lexeme, whose glyph is used as the token
needs. -/
theorem provides_of_classify
    (found : language.classify lexeme = .ok token) :
    language.Provides lexeme.glyph token ∧ token.text = lexeme.text := by
  unfold classify at found
  split at found
  · next fixed =>
      split at found
      · next plain =>
          cases found
          obtain ⟨provides, text⟩ := provides_of_fixedToken? fixed
          refine ⟨provides, ?_⟩
          rw [text, Lexeme.text, Lexeme.characters,
            List.isEmpty_iff.mp plain]
          rfl
      · cases found
  · split at found
    · next indexed =>
        cases found
        exact provides_of_indexedToken? indexed
    · cases found

/-- An opening bracket is one of a pair of the language. -/
theorem mem_brackets_of_classify
    {brackets : Brackets}
    (found : language.classify lexeme = .ok (.opening brackets)) :
    brackets ∈ language.brackets := by
  unfold classify at found
  split at found
  · next fixed =>
      split at found
      · cases found
        unfold fixedToken? at fixed
        repeat' split at fixed
        all_goals cases fixed
        next opens => exact (opening?_eq_some opens).1
      · cases found
  · split at found
    · next indexed =>
        cases found
        simp only [indexedToken?] at indexed
        repeat' split at indexed
        all_goals cases indexed
    · cases found

/-- A complement glyph stands for an infix relation of the language. -/
theorem exists_relation_of_classify
    {symbol complement : Symbol}
    (found : language.classify lexeme = .ok (.complement symbol complement)) :
    ∃ relation ∈ language.infixRelations,
      symbol = ⟨String.singleton relation.symbol, .infixRelation⟩ := by
  unfold classify at found
  split at found
  · next fixed =>
      split at found
      · cases found
        unfold fixedToken? at fixed
        repeat' split at fixed
        all_goals cases fixed
        next complements => exact ⟨_, List.mem_of_find?_eq_some complements, rfl⟩
      · cases found
  · split at found
    · next indexed =>
        cases found
        simp only [indexedToken?] at indexed
        repeat' split at indexed
        all_goals cases indexed
    · cases found

/-- The glyph of an infix relation of a valid language is its token. -/
theorem classify_infixRelation
    (valid : language.validate = .ok ())
    {relation : InfixRelation}
    (member : relation ∈ language.infixRelations) :
    language.classify ⟨relation.symbol, []⟩ =
      .ok (.infixRelation
        ⟨String.singleton relation.symbol, .infixRelation⟩) := by
  have relates : language.Uses relation.symbol .infixRelation :=
    ⟨relation, member, rfl⟩
  have there : (language.infixRelation? relation.symbol).isSome = true :=
    List.find?_isSome.mpr ⟨relation, member, by simp⟩
  cases fixed : language.fixedToken? relation.symbol with
  | none =>
      unfold fixedToken? at fixed
      repeat' split at fixed
      all_goals cases fixed
  | some token =>
      have provides := (provides_of_fixedToken? fixed).1
      unfold Provides at provides
      have same : token = .infixRelation
          ⟨String.singleton relation.symbol, .infixRelation⟩ := by
        split at provides
        · next use used =>
            cases use_unique valid relates provides
            unfold fixedToken? at fixed
            repeat' split at fixed
            all_goals cases fixed
            all_goals cases used
            rfl
        · have other := not_uses_of_mem_reservedGlyphs valid provides
          exact absurd relates (other _)
      rw [classify, fixed, same]
      rfl

section

variable (valid : language.validate = .ok ())
variable {brackets : Brackets} (member : brackets ∈ language.brackets)

include valid member

theorem opening?_eq_of_mem :
    language.opening? brackets.opening = some brackets := by
  cases found : language.opening? brackets.opening with
  | none =>
      have missed := List.find?_eq_none.mp found brackets member
      simp at missed
  | some pair =>
      obtain ⟨member', same⟩ := opening?_eq_some found
      rw [brackets_unique valid member' member (.inl same)]

theorem closing?_eq_of_mem :
    language.closing? brackets.closing = some brackets := by
  cases found : language.closing? brackets.closing with
  | none =>
      have missed := List.find?_eq_none.mp found brackets member
      simp at missed
  | some pair =>
      obtain ⟨member', same⟩ := closing?_eq_some found
      rw [brackets_unique valid member' member (.inr same)]

/-- No closing bracket of a valid language opens a pair. -/
theorem opening?_closing_eq_none :
    language.opening? brackets.closing = none := by
  cases found : language.opening? brackets.closing with
  | none => rfl
  | some pair =>
      obtain ⟨member', same⟩ := opening?_eq_some found
      have opens : language.Uses brackets.closing .opening :=
        ⟨pair, member', same⟩
      have closes : language.Uses brackets.closing .closing :=
        ⟨brackets, member, rfl⟩
      cases use_unique valid opens closes

theorem classify_opening :
    language.classify ⟨brackets.opening, []⟩ = .ok (.opening brackets) := by
  simp [classify, fixedToken?, opening?_eq_of_mem valid member]

theorem classify_closing :
    language.classify ⟨brackets.closing, []⟩ = .ok (.closing brackets) := by
  simp [classify, fixedToken?, opening?_closing_eq_none valid member,
    closing?_eq_of_mem valid member]

end

end Language
end SymbolicLogic
