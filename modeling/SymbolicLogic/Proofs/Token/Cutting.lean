import SymbolicLogic.Grammar.Parse
import SymbolicLogic.Proofs.Token.Spelling

/-!
# Cutting text

A text is cut into lexemes in one way. Each lexeme is a glyph with all the index
characters behind it, and what stands between lexemes is blank. So nothing is lost but
blanks, and texts that are cut into the same lexemes are read alike.
-/

namespace SymbolicLogic

namespace Lexeme

/-- The text consists of the lexemes with blanks around them, and no lexeme has an index
character behind it. -/
inductive Cuts : List Char -> List Lexeme -> Prop
  | blank {text : List Char} (blanks : Text.allBlank text = true) : Cuts text []
  | lexeme
      (before : List Char)
      {glyph : Char}
      {index rest : List Char}
      {lexemes : List Lexeme}
      (blanks : Text.allBlank before = true)
      (solid : Text.isBlank glyph = false)
      (indexes : ∀ c ∈ index, isIndex c = true)
      (longest : ∀ c ∈ rest.head?, isIndex c = false)
      (others : Cuts rest lexemes) :
      Cuts (before ++ glyph :: (index ++ rest)) (⟨glyph, index⟩ :: lexemes)

variable {text before : List Char} {lexemes : List Lexeme} {c : Char}

theorem Cuts.cons_blank
    (cuts : Cuts text lexemes)
    (blank : Text.isBlank c = true) : Cuts (c :: text) lexemes := by
  have blanks {text : List Char} (blanks : Text.allBlank text = true) :
      Text.allBlank (c :: text) = true := by
    simpa [Text.allBlank, blank] using blanks
  cases cuts with
  | blank others => exact .blank (blanks others)
  | lexeme before others solid indexes longest rest =>
      exact .lexeme (c :: before) (blanks others) solid indexes longest rest

mutual

/-- Every text is cut. -/
theorem cuts_between (text : List Char) : Cuts text (between text) := by
  cases text with
  | nil => exact .blank rfl
  | cons c rest =>
      rw [between]
      split
      · next blank => exact (cuts_between rest).cons_blank blank
      · next solid => exact cuts_within ⟨c, []⟩ rest (by simpa using solid) (by simp)

/-- What has been begun is the beginning of a lexeme. -/
theorem cuts_within
    (begun : Lexeme)
    (text : List Char)
    (solid : Text.isBlank begun.glyph = false)
    (indexes : ∀ c ∈ begun.index, isIndex c = true) :
    Cuts (begun.characters ++ text) (within begun text) := by
  cases text with
  | nil => exact .lexeme [] rfl solid indexes (by simp) (.blank rfl)
  | cons c rest =>
      rw [within]
      split
      · next index =>
          have extended := cuts_within { begun with index := begun.index ++ [c] } rest
            solid (List.forall_mem_append.mpr ⟨indexes, by simpa using index⟩)
          simpa [characters] using extended
      · next ends =>
          have longest : ∀ d ∈ (c :: rest).head?, isIndex d = false := by
            simpa using ends
          split
          · next blank =>
              exact .lexeme [] rfl solid indexes longest
                ((cuts_between rest).cons_blank blank)
          · next other =>
              exact .lexeme [] rfl solid indexes longest
                (cuts_within ⟨c, []⟩ rest (by simpa using other) (by simp))

end

/-- Blanks in front of a text make no difference to its lexemes. -/
theorem between_append_of_allBlank
    (blanks : Text.allBlank before = true)
    (text : List Char) :
    between (before ++ text) = between text := by
  induction before with
  | nil => rfl
  | cons c before inductionHypothesis =>
      simp only [Text.allBlank, List.all_cons, Bool.and_eq_true] at blanks
      rw [List.cons_append, between, if_pos blanks.1, inductionHypothesis blanks.2]

/-- A text is cut in one way. -/
theorem cuts_iff : Cuts text lexemes ↔ ofText text = lexemes := by
  constructor
  · intro cuts
    induction cuts with
    | @blank text blanks =>
        have trimmed := between_append_of_allBlank blanks []
        rwa [List.append_nil] at trimmed
    | @lexeme before glyph index rest lexemes blanks solid indexes longest _ others =>
        rw [ofText, between_append_of_allBlank blanks, between, if_neg (by simp [solid]),
          within_append _ indexes, within_eq_cons _ longest, List.nil_append]
        exact congrArg _ others
  · rintro rfl
    exact cuts_between text

end Lexeme

namespace Language

open Lexeme (Cuts)

variable {language : Language} {text first second : String} {lexemes : List Lexeme}
  {tokens : List Token}

/-- A text with a symbol has the tokens of its lexemes. -/
theorem tokens_of_cuts
    (cuts : Cuts text.toList lexemes)
    (nonempty : lexemes ≠ []) :
    language.tokens text = lexemes.mapM language.classify := by
  rw [Language.tokens, Lexeme.cuts_iff.mp cuts]
  split
  · exact absurd rfl nonempty
  · rfl

/-- Lexemes are tokens with their texts. -/
theorem exists_cuts_of_tokens (lexes : language.tokens text = .ok tokens) :
    ∃ lexemes, Cuts text.toList lexemes ∧
      List.Forall₂ (fun lexeme token => token.text = lexeme.text) lexemes tokens := by
  have cuts : Cuts text.toList (Lexeme.ofText text.toList) := Lexeme.cuts_iff.mpr rfl
  refine ⟨_, cuts, ?_⟩
  cases whole : Lexeme.ofText text.toList with
  | nil =>
      rw [Language.tokens, whole] at lexes
      change (if text.isEmpty then Except.ok [] else _) = _ at lexes
      split at lexes
      · cases lexes
        exact .nil
      · cases lexes
  | cons lexeme lexemes =>
      rw [tokens_of_cuts cuts (by simp [whole]), whole] at lexes
      exact (forall₂_of_mapM lexes).imp fun _ _ found => (provides_of_classify found).2

theorem flatMap_text_of_forall₂
    (texts : List.Forall₂ (fun lexeme token => token.text = lexeme.text)
      lexemes tokens) :
    tokens.flatMap (·.text.toList) = lexemes.flatMap Lexeme.characters := by
  induction texts with
  | nil => rfl
  | cons same _ inductionHypothesis =>
      rw [List.flatMap_cons, List.flatMap_cons, inductionHypothesis, same, Lexeme.text,
        String.toList_ofList]

/-- Texts with the same tokens are read alike. -/
theorem parseBy_eq_ok_congr
    {α : Type}
    (same : language.tokens first = language.tokens second)
    (rule : Rule α)
    (value : α) :
    language.parseBy rule first = .ok value ↔
      language.parseBy rule second = .ok value := by
  unfold parseBy
  rw [same]
  cases language.tokens second with
  | error failure => simp
  | ok tokens => cases found : rule.whole? tokens <;> simp [found]

/-- The tokens of a text show all of it but its blanks. Each is a glyph with the longest
run of index characters behind it. Blanks around the symbols of a text, if it has any,
do not matter. -/
theorem spacing_immaterial (language : Language) :
    (∀ text tokens, language.tokens text = .ok tokens ->
      tokens.flatMap (·.text.toList) =
          text.toList.filter (fun c => !Text.isBlank c) ∧
        ∃ lexemes, Cuts text.toList lexemes ∧
          List.Forall₂ (fun lexeme token => token.text = lexeme.text)
            lexemes tokens) ∧
      ∀ first second lexemes, Cuts first.toList lexemes ->
        Cuts second.toList lexemes -> lexemes ≠ [] ->
        language.tokens first = language.tokens second ∧
          (∀ whole, language.parseFormula first = .ok whole ↔
            language.parseFormula second = .ok whole) ∧
          ∀ value, language.parseTerm first = .ok value ↔
            language.parseTerm second = .ok value := by
  constructor
  · intro text tokens lexes
    obtain ⟨lexemes, cuts, texts⟩ := exists_cuts_of_tokens lexes
    refine ⟨?_, lexemes, cuts, texts⟩
    rw [flatMap_text_of_forall₂ texts, ← Lexeme.cuts_iff.mp cuts,
      Lexeme.characters_ofText]
  · intro first second lexemes cuts cuts' nonempty
    have same : language.tokens first = language.tokens second :=
      (tokens_of_cuts cuts nonempty).trans (tokens_of_cuts cuts' nonempty).symm
    exact ⟨same, parseBy_eq_ok_congr same _, parseBy_eq_ok_congr same _⟩

/-- A conditional is read alike with blanks between its symbols and without. -/
theorem spacing_immaterial_conditional :
    ∃ tokens,
      sentential.tokens "  ( P1 →Q ) " = .ok tokens ∧
        tokens.flatMap (·.text.toList) =
          "  ( P1 →Q ) ".toList.filter (fun c => !Text.isBlank c) ∧
        Cuts "  ( P1 →Q ) ".toList
          [⟨'(', []⟩, ⟨'P', ['1']⟩, ⟨'→', []⟩, ⟨'Q', []⟩, ⟨')', []⟩] ∧
        Cuts "(P1→Q)".toList
          [⟨'(', []⟩, ⟨'P', ['1']⟩, ⟨'→', []⟩, ⟨'Q', []⟩, ⟨')', []⟩] ∧
        sentential.tokens "(P1→Q)" = .ok tokens ∧
        sentential.parseFormula "  ( P1 →Q ) " =
          .ok (.plain (.binary ⟨"→", .connective⟩ .conditional
            (.leaf .letter ⟨"P1", .sentenceLetter⟩)
            (.leaf .letter ⟨"Q", .sentenceLetter⟩) (some .round))) := by
  have lexes : sentential.tokens "  ( P1 →Q ) " =
      .ok [.opening .round, .letter ⟨"P1", .sentenceLetter⟩,
        .connective ⟨"→", .connective⟩ .conditional,
        .letter ⟨"Q", .sentenceLetter⟩, .closing .round] := rfl
  have spaced : Cuts "  ( P1 →Q ) ".toList
      [⟨'(', []⟩, ⟨'P', ['1']⟩, ⟨'→', []⟩, ⟨'Q', []⟩, ⟨')', []⟩] :=
    Lexeme.cuts_iff.mpr rfl
  have compact : Cuts "(P1→Q)".toList
      [⟨'(', []⟩, ⟨'P', ['1']⟩, ⟨'→', []⟩, ⟨'Q', []⟩, ⟨')', []⟩] :=
    Lexeme.cuts_iff.mpr rfl
  obtain ⟨lossless, alike⟩ := spacing_immaterial sentential
  obtain ⟨same, formulas, -⟩ := alike _ _ _ spaced compact (by simp)
  have read : sentential.parseFormula "(P1→Q)" =
      .ok (.plain (.binary ⟨"→", .connective⟩ .conditional
        (.leaf .letter ⟨"P1", .sentenceLetter⟩)
        (.leaf .letter ⟨"Q", .sentenceLetter⟩) (some .round))) := by
    rw [parseFormula, parseBy, ← same, lexes]
    rfl
  exact ⟨_, lexes, (lossless _ _ lexes).1, spaced, compact, same ▸ lexes,
    (formulas _).mpr read⟩

end Language
end SymbolicLogic
