import SymbolicLogic.Language.Registry

/-!
# What validity gives

A language is valid exactly when its glyphs are free for use and pairwise
different. So a glyph has one use, and a bracket belongs to one pair.
-/

namespace SymbolicLogic
namespace Language

/-- The check passes when no use is of a reserved glyph, of a glyph used before
the list, or of a glyph used earlier in it. -/
theorem checkUses_eq_ok_iff
    (name : String)
    (earlier uses : List (Char × GlyphUse)) :
    checkUses name earlier uses = .ok () ↔
      (∀ entry ∈ uses, isReserved entry.1 = false) ∧
        (∀ entry ∈ uses, ∀ before ∈ earlier, before.1 ≠ entry.1) ∧
        uses.Pairwise fun first second => first.1 ≠ second.1 := by
  induction uses generalizing earlier with
  | nil => simp [checkUses]
  | cons entry later inductionHypothesis =>
      obtain ⟨glyph, use⟩ := entry
      rw [checkUses]
      by_cases reserved : isReserved glyph = true
      · simp [reserved]
      · rw [if_neg reserved]
        cases clash : earlier.find? fun before => before.1 = glyph with
        | some before =>
            have used := List.find?_some clash
            have member := List.mem_of_find?_eq_some clash
            simp only [decide_eq_true_eq] at used
            simp only [reduceCtorEq, false_iff]
            rintro ⟨-, fresh, -⟩
            exact fresh _ List.mem_cons_self _ member used
        | none =>
            have fresh : ∀ before ∈ earlier, before.1 ≠ glyph := by
              intro before member equal
              have missed := List.find?_eq_none.mp clash before member
              simp [equal] at missed
            simp only [inductionHypothesis, List.forall_mem_cons,
              List.forall_mem_append, List.pairwise_cons,
              List.mem_singleton, forall_eq]
            constructor
            · rintro ⟨free, apart, distinct⟩
              exact ⟨⟨by simpa using reserved, free⟩,
                ⟨fresh, fun later member => (apart later member).1⟩,
                fun later member => (apart later member).2 , distinct⟩
            · rintro ⟨⟨-, free⟩, ⟨-, apart⟩, different, distinct⟩
              exact ⟨free, fun later member =>
                ⟨apart later member, different later member⟩, distinct⟩

/-- A language is valid if no glyph is reserved and none is used twice. -/
theorem validate_eq_ok_iff (language : Language) :
    language.validate = .ok () ↔
      (∀ entry ∈ language.glyphUses, isReserved entry.1 = false) ∧
        language.glyphUses.Pairwise fun first second =>
          first.1 ≠ second.1 := by
  simp [validate, checkUses_eq_ok_iff]

/-- The built-in languages pass the check. -/
theorem validate_of_mem_builtin
    {language : Language}
    (member : language ∈ Registry.builtin.languages) :
    language.validate = .ok () := by
  rw [validate_eq_ok_iff]
  revert language
  decide +kernel

theorem opening_mem_bracketUses (brackets : Brackets) :
    (brackets.opening, .opening) ∈ bracketUses brackets :=
  List.mem_cons_self

theorem closing_mem_bracketUses (brackets : Brackets) :
    (brackets.closing, .closing) ∈ bracketUses brackets :=
  List.mem_cons_of_mem _ List.mem_cons_self

theorem complement_mem_relationUses
    {relation : InfixRelation}
    {complement : Char}
    (complements : relation.complement = some complement) :
    (complement, .complement) ∈ relationUses relation := by
  simp [relationUses, complements]

/-- Items whose glyphs are all different share none with another item. -/
theorem eq_of_pairwise_flatMap
    {α : Type}
    {uses : α -> List (Char × GlyphUse)}
    {items : List α}
    (distinct : (items.flatMap uses).Pairwise fun first second =>
      first.1 ≠ second.1)
    {item item' : α}
    (member : item ∈ items)
    (member' : item' ∈ items)
    {entry entry' : Char × GlyphUse}
    (used : entry ∈ uses item)
    (used' : entry' ∈ uses item')
    (same : entry.1 = entry'.1) :
    item = item' := by
  have apart := (List.pairwise_flatMap.mp distinct).2
  have shared := List.Pairwise.forall_of_forall_of_flip
    (fun _ _ _ => rfl)
    (apart.imp fun apart shares =>
      have ⟨_, used, _, used', same⟩ := shares
      absurd same (apart _ used _ used') :
      List.Pairwise (fun first second =>
        (∃ entry ∈ uses first, ∃ entry' ∈ uses second, entry.1 = entry'.1) ->
          first = second) items)
    (apart.imp fun apart shares =>
      have ⟨_, used, _, used', same⟩ := shares
      absurd same.symm (apart _ used' _ used))
  exact shared member member' ⟨entry, used, entry', used', same⟩

/-- The language has the glyph for the use. -/
def Uses (language : Language) (glyph : Char) : GlyphUse -> Prop
  | .letter => glyph ∈ language.letters
  | .constant => glyph ∈ language.constants
  | .objectVariable => glyph ∈ language.objectVariables
  | .function => glyph ∈ language.functions
  | .infixFunction => glyph ∈ language.infixFunctions
  | .negation => glyph ∈ language.negation
  | .connective connective => glyph ∈ language.glyphs connective
  | .quantifier .universal => glyph ∈ language.universal
  | .quantifier .existential => glyph ∈ language.existential
  | .formulaMeta => glyph ∈ language.formulaMetas
  | .termMeta => glyph ∈ language.termMetas
  | .variableMeta => glyph ∈ language.variableMetas
  | .anyMeta => glyph ∈ language.anyMetas
  | .infixRelation =>
      ∃ relation ∈ language.infixRelations, relation.symbol = glyph
  | .complement =>
      ∃ relation ∈ language.infixRelations, relation.complement = some glyph
  | .divider => language.divider = some glyph
  | .opening => ∃ brackets ∈ language.brackets, brackets.opening = glyph
  | .closing => ∃ brackets ∈ language.brackets, brackets.closing = glyph

/-- The list of uses has exactly the uses of glyphs. -/
theorem mem_glyphUses_iff
    (language : Language)
    (glyph : Char)
    (use : GlyphUse) :
    (glyph, use) ∈ language.glyphUses ↔ language.Uses glyph use := by
  cases use with
  | quantifier kind =>
      cases kind <;>
        simp [glyphUses, Uses, relationUses, bracketUses]
  | connective connective =>
      have listed := connective.mem_all
      simp [glyphUses, Uses, relationUses, bracketUses]
      grind
  | infixRelation | complement | opening | closing =>
      simp [glyphUses, Uses, relationUses, bracketUses, eq_comm]
  | _ => simp [glyphUses, Uses, relationUses, bracketUses]

section

variable {language : Language} (valid : language.validate = .ok ())

include valid

/-- A glyph of a valid language has one use. -/
theorem use_unique
    {glyph : Char}
    {first second : GlyphUse}
    (usedFirst : language.Uses glyph first)
    (usedSecond : language.Uses glyph second) :
    first = second := by
  rw [← mem_glyphUses_iff] at usedFirst usedSecond
  have distinct := ((validate_eq_ok_iff language).mp valid).2
  have same := List.Pairwise.forall_of_forall_of_flip
    (fun _ _ _ => rfl)
    (distinct.imp fun apart equal => absurd equal apart :
      List.Pairwise (fun first second => first.1 = second.1 -> first = second)
        language.glyphUses)
    (distinct.imp fun apart equal => absurd equal.symm apart)
  exact (Prod.mk.inj (same usedFirst usedSecond rfl)).2

/-- A glyph that is used is not reserved. -/
theorem not_isReserved
    {glyph : Char}
    {use : GlyphUse}
    (used : language.Uses glyph use) :
    isReserved glyph = false :=
  ((validate_eq_ok_iff language).mp valid).1 _
    ((mem_glyphUses_iff language glyph use).mpr used)

/-- A mark that all languages share is no glyph of any. -/
theorem not_uses_of_mem_reservedGlyphs
    {glyph : Char}
    (reserved : glyph ∈ reservedGlyphs)
    (use : GlyphUse) : ¬language.Uses glyph use := by
  intro used
  have free := not_isReserved valid used
  rw [isReserved, Bool.or_eq_false_iff, ← Bool.not_eq_true,
    List.contains_iff_mem] at free
  exact free.1 reserved

/-- Two pairs of a valid language that share a bracket are one pair. -/
theorem brackets_unique
    {first second : Brackets}
    (member : first ∈ language.brackets)
    (member' : second ∈ language.brackets)
    (shares : first.opening = second.opening ∨
      first.closing = second.closing) :
    first = second := by
  have distinct := ((validate_eq_ok_iff language).mp valid).2
  rw [glyphUses, List.pairwise_append] at distinct
  rcases shares with same | same
  · exact eq_of_pairwise_flatMap distinct.2.1 member member'
      (opening_mem_bracketUses first) (opening_mem_bracketUses second) same
  · exact eq_of_pairwise_flatMap distinct.2.1 member member'
      (closing_mem_bracketUses first) (closing_mem_bracketUses second) same

/-- Two relations of a valid language that share a complement are one relation. -/
theorem relation_unique
    {first second : InfixRelation}
    (member : first ∈ language.infixRelations)
    (member' : second ∈ language.infixRelations)
    {complement : Char}
    (complements : first.complement = some complement)
    (complements' : second.complement = some complement) :
    first = second := by
  have distinct := ((validate_eq_ok_iff language).mp valid).2
  rw [glyphUses, List.pairwise_append, List.pairwise_append,
    List.pairwise_append] at distinct
  exact eq_of_pairwise_flatMap distinct.1.1.2.1 member member'
    (complement_mem_relationUses complements)
    (complement_mem_relationUses complements') rfl

end

end Language
end SymbolicLogic
