import SymbolicLogic.Proofs.Lists
import SymbolicLogic.Proofs.Token.Classification

/-!
# The order of the classes

When a lexeme is classified, the classes of the language are tried one after the other.
In a valid language their order does not matter. A glyph has one use, and its lexeme is
the token that is written by a glyph of this use, whichever classes are tried first.
-/

namespace SymbolicLogic

/-- Glyphs of the use may carry an index. -/
def GlyphUse.takesIndex : GlyphUse -> Bool
  | .letter | .constant | .objectVariable | .function
  | .formulaMeta | .termMeta | .variableMeta | .anyMeta => true
  | _ => false

namespace Language

/-- The lexeme, with its glyph in the given use, writes the token. A glyph of a pair of
brackets or of an infix relation writes a token of this pair or relation. -/
def WritesToken
    (language : Language)
    (use : GlyphUse)
    (lexeme : Lexeme)
    (token : Token) : Prop :=
  match use with
  | .letter => token = .letter ⟨lexeme.text, .sentenceLetter⟩
  | .constant => token = .constant ⟨lexeme.text, .constant⟩
  | .objectVariable => token = .objectVariable ⟨lexeme.text, .objectVariable⟩
  | .function => token = .function ⟨lexeme.text, .function⟩
  | .infixFunction => token = .infixFunction ⟨lexeme.text, .infixFunction⟩
  | .negation => token = .negation ⟨lexeme.text, .connective⟩
  | .connective kind => token = .connective ⟨lexeme.text, .connective⟩ kind
  | .quantifier kind => token = .quantifier ⟨lexeme.text, .quantifier⟩ kind
  | .formulaMeta => token = .formulaMeta ⟨lexeme.text, .formulaMeta⟩
  | .termMeta => token = .termMeta ⟨lexeme.text, .termMeta⟩
  | .variableMeta => token = .variableMeta ⟨lexeme.text, .variableMeta⟩
  | .anyMeta => token = .anyMeta ⟨lexeme.text, .anyMeta⟩
  | .infixRelation => token = .infixRelation ⟨lexeme.text, .infixRelation⟩
  | .complement =>
      ∃ relation ∈ language.infixRelations,
        relation.complement = some lexeme.glyph ∧
          token = .complement ⟨String.singleton relation.symbol, .infixRelation⟩
            ⟨lexeme.text, .infixRelation⟩
  | .divider => token = .divider ⟨lexeme.text, .divider⟩
  | .opening =>
      ∃ brackets ∈ language.brackets,
        brackets.opening = lexeme.glyph ∧ token = .opening brackets
  | .closing =>
      ∃ brackets ∈ language.brackets,
        brackets.closing = lexeme.glyph ∧ token = .closing brackets

variable {language : Language} {glyph : Char} {use : GlyphUse} {token : Token}
  {lexeme : Lexeme}

/-- A token that is found by one character is one that its use writes, without an index. -/
theorem writes_of_fixedToken?
    (found : language.fixedToken? glyph = some token)
    (used : token.use? = some use) :
    language.WritesToken use ⟨glyph, []⟩ token ∧ use.takesIndex = false := by
  unfold fixedToken? at found
  repeat' split at found
  all_goals cases found
  all_goals cases used
  · next brackets opens =>
      obtain ⟨member, same⟩ := opening?_eq_some opens
      exact ⟨⟨brackets, member, same, rfl⟩, rfl⟩
  · next brackets closes =>
      obtain ⟨member, same⟩ := closing?_eq_some closes
      exact ⟨⟨brackets, member, same, rfl⟩, rfl⟩
  · exact ⟨rfl, rfl⟩
  · exact ⟨rfl, rfl⟩
  · exact ⟨rfl, rfl⟩
  · exact ⟨rfl, rfl⟩
  · exact ⟨rfl, rfl⟩
  · next relation complements =>
      exact ⟨⟨relation, List.mem_of_find?_eq_some complements,
        by simpa using List.find?_some complements, rfl⟩, rfl⟩
  · exact ⟨rfl, rfl⟩

/-- A token that takes an index is one that its use writes. -/
theorem writes_of_indexedToken?
    (found : language.indexedToken? lexeme = some token) :
    ∃ use, token.use? = some use ∧ language.WritesToken use lexeme token ∧
      use.takesIndex = true := by
  simp only [indexedToken?] at found
  repeat' split at found
  all_goals cases found
  all_goals exact ⟨_, rfl, rfl, rfl⟩

theorem exists_quantifier?
    {kind : Quantifier}
    (used : language.Uses glyph (.quantifier kind)) :
    ∃ quantifier, language.quantifier? glyph = some quantifier := by
  unfold quantifier?
  cases kind with
  | universal => exact ⟨.universal, if_pos (List.contains_iff_mem.mpr used)⟩
  | existential =>
      split
      · exact ⟨_, rfl⟩
      · exact ⟨.existential, if_pos (List.contains_iff_mem.mpr used)⟩

/-- A test that finds nothing is one that the glyph does not pass. -/
theorem exists_fixedToken?
    (used : language.Uses glyph use)
    (plain : use.takesIndex = false) :
    ∃ token, language.fixedToken? glyph = some token := by
  refine Option.ne_none_iff_exists'.mp fun missing => ?_
  unfold fixedToken? at missing
  repeat' split at missing
  all_goals cases missing
  next _ opens _ closes negates _ connects _ quantifies divides relates _ complements
      operates _ _ _ _ =>
    cases use <;> cases plain
    case infixFunction => exact operates (List.contains_iff_mem.mpr used)
    case negation => exact negates (List.contains_iff_mem.mpr used)
    case connective kind =>
      obtain ⟨found, isFound⟩ : ∃ found, language.connective? glyph = some found :=
        exists_of_find? ⟨kind, kind.mem_all, List.contains_iff_mem.mpr used⟩
      exact connects found isFound
    case quantifier kind =>
      obtain ⟨found, isFound⟩ := exists_quantifier? used
      exact quantifies found isFound
    case infixRelation =>
      obtain ⟨relation, member, same⟩ := used
      exact relates (List.find?_isSome.mpr ⟨relation, member, by simp [same]⟩)
    case complement =>
      obtain ⟨relation, member, same⟩ := used
      obtain ⟨found, isFound⟩ : ∃ found, language.complementOf? glyph = some found :=
        exists_of_find? ⟨relation, member, by simp [same]⟩
      exact complements found isFound
    case divider => exact divides used
    case opening =>
      obtain ⟨brackets, member, same⟩ := used
      obtain ⟨found, isFound⟩ : ∃ found, language.opening? glyph = some found :=
        exists_of_find? ⟨brackets, member, by simp [same]⟩
      exact opens found isFound
    case closing =>
      obtain ⟨brackets, member, same⟩ := used
      obtain ⟨found, isFound⟩ : ∃ found, language.closing? glyph = some found :=
        exists_of_find? ⟨brackets, member, by simp [same]⟩
      exact closes found isFound

/-- A glyph of a use that takes indexes gives a token with any index. -/
theorem exists_indexedToken?
    (used : language.Uses lexeme.glyph use)
    (indexed : use.takesIndex = true) :
    ∃ token, language.indexedToken? lexeme = some token := by
  refine Option.ne_none_iff_exists'.mp fun missing => ?_
  simp only [indexedToken?] at missing
  repeat' split at missing
  all_goals cases missing
  cases use <;> cases indexed
  all_goals exact absurd (List.contains_iff_mem.mpr used) (by assumption)

section

variable (valid : language.validate = .ok ())

include valid

/-- A glyph with a use writes one token. -/
theorem writes_unique
    {other : Token}
    (writes : language.WritesToken use lexeme token)
    (writes' : language.WritesToken use lexeme other) :
    other = token := by
  cases use
  case opening =>
    obtain ⟨brackets, member, same, rfl⟩ := writes
    obtain ⟨brackets', member', same', rfl⟩ := writes'
    rw [brackets_unique valid member' member (.inl (same'.trans same.symm))]
  case closing =>
    obtain ⟨brackets, member, same, rfl⟩ := writes
    obtain ⟨brackets', member', same', rfl⟩ := writes'
    rw [brackets_unique valid member' member (.inr (same'.trans same.symm))]
  case complement =>
    obtain ⟨relation, member, same, rfl⟩ := writes
    obtain ⟨relation', member', same', rfl⟩ := writes'
    rw [relation_unique valid member' member same' same]
  all_goals exact Eq.trans writes' (Eq.symm writes)

/-- The use of a token that is found is that of its glyph. -/
theorem use?_of_provides
    (used : language.Uses glyph use)
    (provides : language.Provides glyph token) :
    token.use? = some use := by
  unfold Provides at provides
  split at provides
  · next use' found => rw [found, use_unique valid used provides]
  · exact absurd used (not_uses_of_mem_reservedGlyphs valid provides use)

/-- A glyph of a use that takes indexes gives no token by itself. -/
theorem fixedToken?_eq_none
    (used : language.Uses glyph use)
    (indexed : use.takesIndex = true) :
    language.fixedToken? glyph = none := by
  cases found : language.fixedToken? glyph with
  | none => rfl
  | some token =>
      have isUse := use?_of_provides valid used (provides_of_fixedToken? found).1
      have plain := (writes_of_fixedToken? found isUse).2
      rw [indexed] at plain
      cases plain

/-- A glyph that takes no index writes its token alone and is no token with an index. -/
theorem classify_of_plain
    (used : language.Uses glyph use)
    (plain : use.takesIndex = false)
    (index : List Char) :
    ∃ token, language.WritesToken use ⟨glyph, []⟩ token ∧
      language.classify ⟨glyph, index⟩ =
        if index.isEmpty then .ok token
        else .error (.strayIndex glyph (Lexeme.text ⟨glyph, index⟩)) := by
  obtain ⟨token, found⟩ := exists_fixedToken? used plain
  have isUse := use?_of_provides valid used (provides_of_fixedToken? found).1
  exact ⟨token, (writes_of_fixedToken? found isUse).1, by rw [classify, found]⟩

/-- A glyph that may carry an index writes its token with every index. -/
theorem classify_of_indexed
    (used : language.Uses glyph use)
    (indexed : use.takesIndex = true)
    (index : List Char) :
    ∃ token, language.WritesToken use ⟨glyph, index⟩ token ∧
      language.classify ⟨glyph, index⟩ = .ok token := by
  obtain ⟨token, found⟩ := exists_indexedToken?
    (show language.Uses (Lexeme.mk glyph index).glyph use from used) indexed
  have isUse := use?_of_provides valid used (provides_of_indexedToken? found).1
  obtain ⟨use', isUse', writes, -⟩ := writes_of_indexedToken? found
  cases isUse.symm.trans isUse'
  exact ⟨token, writes, by rw [classify, fixedToken?_eq_none valid used indexed, found]⟩

omit valid in
/-- A glyph without a use is no token, unless it is one of the shared marks. -/
theorem classify_of_unused
    (unused : ∀ use, ¬language.Uses glyph use)
    (free : glyph ∉ reservedGlyphs)
    (index : List Char) :
    language.classify ⟨glyph, index⟩ =
      .error (.unrecognized (Lexeme.text ⟨glyph, index⟩) language.name) := by
  have notFixed : language.fixedToken? glyph = none := by
    simp only [reservedGlyphs, List.mem_cons, List.not_mem_nil, or_false, not_or] at free
    simp [fixedToken?_of_unused unused, free]
  have notIndexed : language.indexedToken? ⟨glyph, index⟩ = none := by
    cases found : language.indexedToken? ⟨glyph, index⟩ with
    | none => rfl
    | some token =>
        obtain ⟨use, isUse, -⟩ := writes_of_indexedToken? found
        have provides := (provides_of_indexedToken? found).1
        rw [Provides, isUse] at provides
        exact absurd provides (unused use)
  rw [classify, notFixed, notIndexed]

end

/-- In a valid language each glyph is the one token that its use writes, whichever
classes are tried before. With an index it is the same token with the whole text, or no
token where its use takes no index. Other characters are no tokens. -/
theorem classify_by_use
    (language : Language)
    (valid : language.validate = .ok ())
    (glyph : Char) :
    (∀ use, language.Uses glyph use ->
      (∃ token, language.classify ⟨glyph, []⟩ = .ok token ∧
        ∀ other, language.WritesToken use ⟨glyph, []⟩ other ↔ other = token) ∧
      ∀ index, index ≠ [] ->
        if use.takesIndex then
          ∃ token, language.classify ⟨glyph, index⟩ = .ok token ∧
            ∀ other, language.WritesToken use ⟨glyph, index⟩ other ↔ other = token
        else
          language.classify ⟨glyph, index⟩ =
            .error (.strayIndex glyph (Lexeme.text ⟨glyph, index⟩))) ∧
      ((∀ use, ¬language.Uses glyph use) -> glyph ∉ reservedGlyphs ->
        ∀ index, language.classify ⟨glyph, index⟩ =
          .error (.unrecognized (Lexeme.text ⟨glyph, index⟩) language.name)) := by
  have exactly {use : GlyphUse} {index : List Char} {token : Token}
      (writes : language.WritesToken use ⟨glyph, index⟩ token) (other : Token) :
      language.WritesToken use ⟨glyph, index⟩ other ↔ other = token :=
    ⟨writes_unique valid writes, fun same => same ▸ writes⟩
  refine ⟨fun use used => ?_, classify_of_unused⟩
  cases takes : use.takesIndex with
  | true =>
      have indexed := classify_of_indexed valid used takes
      obtain ⟨token, writes, found⟩ := indexed []
      refine ⟨⟨token, found, exactly writes⟩, fun index _ => ?_⟩
      obtain ⟨token, writes, found⟩ := indexed index
      exact ⟨token, found, exactly writes⟩
  | false =>
      have plain := classify_of_plain valid used takes
      obtain ⟨token, writes, found⟩ := plain []
      refine ⟨⟨token, found, exactly writes⟩, fun index nonempty => ?_⟩
      obtain ⟨_, -, found⟩ := plain index
      simpa [nonempty] using found

/-- In the predicate language `≠` is the complement of `=` and takes no index, `x₁` is a
variable, and `⊕` has no use. -/
theorem classify_by_use_predicate :
    predicate.validate = .ok () ∧
      predicate.Uses '≠' .complement ∧ predicate.Uses 'x' .objectVariable ∧
      (∀ use, ¬predicate.Uses '⊕' use) ∧ '⊕' ∉ reservedGlyphs ∧
      predicate.classify ⟨'≠', []⟩ =
        .ok (.complement ⟨"=", .infixRelation⟩ ⟨"≠", .infixRelation⟩) ∧
      predicate.classify ⟨'≠', ['₁']⟩ = .error (.strayIndex '≠' "≠₁") ∧
      predicate.classify ⟨'x', ['₁']⟩ =
        .ok (.objectVariable ⟨"x₁", .objectVariable⟩) ∧
      predicate.classify ⟨'⊕', []⟩ = .error (.unrecognized "⊕" "Predicate") := by
  have valid : predicate.validate = .ok () :=
    validate_of_mem_builtin (by simp [Registry.builtin])
  have complements : predicate.Uses '≠' .complement :=
    ⟨⟨'=', some '≠'⟩, by decide, rfl⟩
  have isVariable : predicate.Uses 'x' .objectVariable := by
    unfold Uses
    decide
  have unused : ∀ use, ¬predicate.Uses '⊕' use := by
    intro use used
    have other : ∀ entry ∈ predicate.glyphUses, entry.1 ≠ '⊕' := by decide +kernel
    exact other _ ((mem_glyphUses_iff predicate '⊕' use).mpr used) rfl
  have law := classify_by_use predicate valid
  obtain ⟨⟨token, found, only⟩, indexed⟩ := (law '≠').1 _ complements
  obtain ⟨token', found', only'⟩ := ((law 'x').1 _ isVariable).2 ['₁'] (by simp)
  refine ⟨valid, complements, isVariable, unused, by decide, ?_,
    indexed ['₁'] (by simp), ?_, (law '⊕').2 unused (by decide) []⟩
  · rw [found, ← (only _).mp ⟨⟨'=', some '≠'⟩, by decide, rfl, rfl⟩]
    rfl
  · rw [found', ← (only' _).mp rfl]
    rfl

end Language
end SymbolicLogic
