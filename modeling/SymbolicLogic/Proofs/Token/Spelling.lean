import Mathlib.Data.List.Chain
import SymbolicLogic.Proofs.Outcome
import SymbolicLogic.Proofs.Token.Classification

/-!
# The layout of tokens

Tokens are laid out by their texts, one after the other, with blanks around operators
and behind commas and dividers. Cutting the layout gives the tokens back exactly if no
token begins with an index character directly behind another one, which would take it
up as part of its index.
-/

namespace SymbolicLogic

namespace Lexeme

/-- A begun lexeme is complete where no index character follows. -/
theorem within_eq_cons
    (begun : Lexeme)
    {text : List Char}
    (ends : ∀ c ∈ text.head?, isIndex c = false) :
    within begun text = begun :: between text := by
  cases text with
  | nil => rfl
  | cons c rest =>
      have other := ends c rfl
      by_cases blank : Text.isBlank c = true
      · simp [within, between, other, blank]
      · simp [within, between, other, blank]

/-- A lexeme takes up the index characters after its glyph. -/
theorem within_append
    (begun : Lexeme)
    {index : List Char}
    (indexes : ∀ c ∈ index, isIndex c = true)
    (text : List Char) :
    within begun (index ++ text) =
      within { begun with index := begun.index ++ index } text := by
  induction index generalizing begun with
  | nil => simp
  | cons c index inductionHypothesis =>
      obtain ⟨first, others⟩ := List.forall_mem_cons.mp indexes
      rw [List.cons_append, within, if_pos first, inductionHypothesis _ others]
      simp

/-- A begun lexeme takes up all index characters that follow. -/
theorem exists_within_eq_cons (begun : Lexeme) (text : List Char) :
    ∃ others, within begun text =
      { begun with index := begun.index ++ text.takeWhile isIndex } :: others := by
  induction text generalizing begun with
  | nil => exact ⟨[], by simp [within]⟩
  | cons c rest inductionHypothesis =>
      cases index : isIndex c with
      | true =>
          obtain ⟨others, cut⟩ :=
            inductionHypothesis { begun with index := begun.index ++ [c] }
          exact ⟨others, by simp [within, index, cut]⟩
      | false =>
          refine ⟨between (c :: rest), ?_⟩
          rw [within_eq_cons begun fun d first => by cases first; exact index]
          simp [index]

mutual

/-- The index of a lexeme holds index characters only. -/
theorem isIndex_of_mem_between
    (text : List Char)
    (lexeme : Lexeme)
    (member : lexeme ∈ between text) :
    ∀ c ∈ lexeme.index, isIndex c = true := by
  cases text with
  | nil => cases member
  | cons c rest =>
      rw [between] at member
      split at member
      · exact isIndex_of_mem_between rest lexeme member
      · exact isIndex_of_mem_within ⟨c, []⟩ rest (by simp) lexeme member

theorem isIndex_of_mem_within
    (begun : Lexeme)
    (text : List Char)
    (indexes : ∀ c ∈ begun.index, isIndex c = true)
    (lexeme : Lexeme)
    (member : lexeme ∈ within begun text) :
    ∀ c ∈ lexeme.index, isIndex c = true := by
  cases text with
  | nil =>
      obtain rfl := List.mem_singleton.mp member
      exact indexes
  | cons c rest =>
      rw [within] at member
      split at member
      · next index =>
          refine isIndex_of_mem_within _ rest ?_ lexeme member
          intro d placed
          rcases List.mem_append.mp placed with placed | placed
          · exact indexes d placed
          · rwa [List.mem_singleton.mp placed]
      · split at member
        · rcases List.mem_cons.mp member with rfl | member
          · exact indexes
          · exact isIndex_of_mem_between rest lexeme member
        · rcases List.mem_cons.mp member with rfl | member
          · exact indexes
          · exact isIndex_of_mem_within ⟨c, []⟩ rest (by simp) lexeme member

end

end Lexeme

namespace Token

/-- Operators between two operands are written with a blank in front. -/
def blankBefore : Token -> Bool
  | .connective .. | .infixRelation _ | .complement .. | .infixFunction _ => true
  | _ => false

/-- They are also written with a blank behind, and so are commas and dividers. -/
def blankBehind : Token -> Bool
  | .comma | .divider _ => true
  | token => token.blankBefore

/-- A blank, where there is one. -/
def blank (present : Bool) : List Char :=
  if present then [' '] else []

/-- The characters by which the token is written, blanks included. -/
def layout (token : Token) : List Char :=
  blank token.blankBefore ++ token.text.toList ++ blank token.blankBehind

/-- Behind the first token the second one is read as a token of its own: there is a
blank between them, or it does not begin with an index character. -/
def Apart (first second : Token) : Prop :=
  first.blankBehind = true ∨ second.blankBefore = true ∨
    ∀ c ∈ second.text.toList.head?, Lexeme.isIndex c = false

end Token

namespace Language

/-- No glyph of the language is an index character. -/
def IndexFree (language : Language) : Prop :=
  ∀ entry ∈ language.glyphUses, Lexeme.isIndex entry.1 = false

/-- No built-in language has index characters as glyphs. -/
theorem indexFree_of_mem_builtin
    {language : Language}
    (member : language ∈ Registry.builtin.languages) :
    language.IndexFree := by
  unfold IndexFree
  revert language
  decide +kernel

/-- The token is that of some lexeme in the language. -/
def HasToken (language : Language) (token : Token) : Prop :=
  ∃ lexeme : Lexeme, (∀ c ∈ lexeme.index, Lexeme.isIndex c = true) ∧
    language.classify lexeme = .ok token

/-- Both brackets of a pair are tokens. -/
def HasBrackets (language : Language) (brackets : Brackets) : Prop :=
  language.HasToken (.opening brackets) ∧
    language.HasToken (.closing brackets)

/-- The tokens of a text are tokens of the language. -/
theorem hasToken_of_mem_tokens
    {language : Language}
    {whole : String}
    {tokens : List Token}
    (lexes : language.tokens whole = .ok tokens)
    {token : Token}
    (member : token ∈ tokens) :
    language.HasToken token := by
  have cut : (Lexeme.between whole.toList).mapM language.classify =
      .ok tokens := by
    rw [Language.tokens] at lexes
    split at lexes
    · next empty =>
        split at lexes
        · cases lexes
          cases member
        · cases lexes
    · exact lexes
  obtain ⟨lexeme, placed, found⟩ := exists_of_mem_mapM cut member
  exact ⟨lexeme, Lexeme.isIndex_of_mem_between _ lexeme placed, found⟩

theorem hasBrackets_of_mem
    {language : Language}
    (valid : language.validate = .ok ())
    {brackets : Brackets}
    (member : brackets ∈ language.brackets) :
    language.HasBrackets brackets :=
  ⟨⟨_, by simp, classify_opening valid member⟩,
    ⟨_, by simp, classify_closing valid member⟩⟩

/-- The marks that all languages share are tokens of every valid one. -/
theorem hasToken_of_mark
    {language : Language}
    (valid : language.validate = .ok ())
    {token : Token}
    (mark : token.use? = none) : language.HasToken token := by
  have unused (glyph : Char) (reserved : glyph ∈ reservedGlyphs) :=
    fixedToken?_of_unused (not_uses_of_mem_reservedGlyphs valid reserved)
  cases token <;> cases mark
  · exact ⟨⟨',', []⟩, by simp, by rw [classify, unused ',' (by decide)]; rfl⟩
  · exact ⟨⟨'/', []⟩, by simp, by rw [classify, unused '/' (by decide)]; rfl⟩
  · exact ⟨⟨'^', []⟩, by simp, by rw [classify, unused '^' (by decide)]; rfl⟩
  · exact ⟨⟨'_', []⟩, by simp, by rw [classify, unused '_' (by decide)]; rfl⟩

section

variable {language : Language} {tokens : List Token}

/-- A token is written as its lexeme was. -/
theorem text_of_classify
    {lexeme : Lexeme}
    {token : Token}
    (found : language.classify lexeme = .ok token) :
    token.text.toList = lexeme.glyph :: lexeme.index := by
  rw [(provides_of_classify found).2, Lexeme.text, String.toList_ofList,
    Lexeme.characters]

/-- Where no blank follows, the next token is apart if its layout does not begin with
an index character. -/
theorem apart_iff
    {first second : Token}
    (known : language.HasToken second)
    (behind : first.blankBehind = false)
    (text : List Char) :
    first.Apart second ↔
      ∀ c ∈ (second.layout ++ text).head?, Lexeme.isIndex c = false := by
  obtain ⟨lexeme, -, found⟩ := known
  rw [Token.Apart, Token.layout, text_of_classify found, behind]
  cases second.blankBefore with
  | true => simp [Token.blank, Lexeme.isIndex]
  | false => simp [Token.blank]

/-- A lexeme that takes up an index character more has another text. -/
theorem head?_of_mapM_within
    {lexeme : Lexeme}
    {token : Token}
    (found : language.classify lexeme = .ok token)
    {text : List Char}
    (cut : (Lexeme.within lexeme text).mapM language.classify =
      .ok (token :: tokens)) :
    ∀ c ∈ text.head?, Lexeme.isIndex c = false := by
  obtain ⟨others, split⟩ := Lexeme.exists_within_eq_cons lexeme text
  rw [split, List.mapM_cons] at cut
  obtain ⟨first, again, rest⟩ := bind_eq_ok.mp cut
  obtain ⟨values, -, whole⟩ := bind_eq_ok.mp rest
  cases whole
  have texts := (provides_of_classify found).2.symm.trans
    (provides_of_classify again).2
  simp only [Lexeme.text, String.ofList_inj, Lexeme.characters, List.cons.injEq,
    true_and, List.self_eq_append_right] at texts
  intro c member
  cases text with
  | nil => cases member
  | cons d text =>
      cases member
      cases index : Lexeme.isIndex c with
      | false => rfl
      | true => rw [List.takeWhile_cons, if_pos index] at texts; cases texts

/-- If no glyph is an index character, all tokens are apart from each other. -/
theorem isChain_apart
    (plain : language.IndexFree)
    (known : ∀ token ∈ tokens, language.HasToken token) :
    tokens.IsChain Token.Apart := by
  have begins : ∀ token ∈ tokens, ∀ c ∈ token.text.toList.head?,
      Lexeme.isIndex c = false := by
    intro token member c first
    obtain ⟨lexeme, -, found⟩ := known token member
    rw [text_of_classify found] at first
    cases first
    have provides := (provides_of_classify found).1
    unfold Provides at provides
    split at provides
    · next use used =>
        exact plain _ ((mem_glyphUses_iff language _ use).mpr provides)
    · have marks : ∀ mark ∈ reservedGlyphs, Lexeme.isIndex mark = false := by
        simp [reservedGlyphs, Lexeme.isIndex]
      exact marks _ provides
  exact (List.pairwise_of_forall_mem_list fun _ _ second member =>
    .inr (.inr (begins second member))).isChain

variable (valid : language.validate = .ok ())

include valid

/-- A token does not begin with a blank. -/
theorem isBlank_of_classify
    {lexeme : Lexeme}
    {token : Token}
    (found : language.classify lexeme = .ok token) :
    Text.isBlank lexeme.glyph = false := by
  have provides := (provides_of_classify found).1
  unfold Provides at provides
  split at provides
  · next use used =>
      have free := not_isReserved valid provides
      rw [isReserved, Bool.or_eq_false_iff] at free
      exact free.2
  · have marks : ∀ mark ∈ reservedGlyphs, Text.isBlank mark = false := by
      simp [reservedGlyphs, Text.isBlank, Text.blankRanges]
    exact marks _ provides

/-- Cutting the text of a token begins its lexeme, which is complete where a blank
follows. -/
theorem between_layout_append
    {lexeme : Lexeme}
    {token : Token}
    (indexes : ∀ c ∈ lexeme.index, Lexeme.isIndex c = true)
    (found : language.classify lexeme = .ok token)
    (text : List Char) :
    Lexeme.between (token.layout ++ text) =
      if token.blankBehind then lexeme :: Lexeme.between text
      else Lexeme.within lexeme text := by
  have solid := isBlank_of_classify valid found
  have cut (rest : List Char) :
      Lexeme.between (token.text.toList ++ rest) = Lexeme.within lexeme rest := by
    rw [text_of_classify found, List.cons_append, Lexeme.between,
      if_neg (by simp [solid]), Lexeme.within_append _ indexes]
    rfl
  have trimmed (rest : List Char) :
      Lexeme.between (Token.blank token.blankBefore ++ rest) =
        Lexeme.between rest := by
    cases token.blankBefore with
    | false => rfl
    | true => rfl
  rw [Token.layout, List.append_assoc, List.append_assoc, trimmed, cut]
  cases token.blankBehind with
  | false => rfl
  | true =>
      rw [Token.blank, if_pos rfl, List.singleton_append, if_pos rfl,
        Lexeme.within_eq_cons lexeme fun c first => by cases first; rfl]
      rfl

/-- Cutting the layout of tokens of the language gives them back exactly if each is
apart from the one in front of it. Otherwise some token takes up the beginning of
the next one as part of its index. -/
theorem mapM_classify_layout_iff
    (known : ∀ token ∈ tokens, language.HasToken token) :
    (Lexeme.between (tokens.flatMap Token.layout)).mapM language.classify =
        .ok tokens ↔ tokens.IsChain Token.Apart := by
  induction tokens with
  | nil => exact iff_of_true rfl .nil
  | cons token tokens inductionHypothesis =>
      obtain ⟨⟨lexeme, indexes, found⟩, others⟩ := List.forall_mem_cons.mp known
      have inductionHypothesis := inductionHypothesis others
      rw [List.flatMap_cons, between_layout_append valid indexes found,
        List.isChain_cons]
      -- Where the token ends with its own text, the others are cut by themselves.
      have complete : (lexeme :: Lexeme.between (tokens.flatMap Token.layout)).mapM
          language.classify = .ok (token :: tokens) ↔ tokens.IsChain Token.Apart := by
        rw [List.mapM_cons, found, ← inductionHypothesis]
        cases (Lexeme.between (tokens.flatMap Token.layout)).mapM
          language.classify <;> simp [bind, Except.bind, pure, Except.pure]
      cases behind : token.blankBehind with
      | true =>
          rw [if_pos rfl, complete]
          exact (and_iff_right fun _ _ => .inl behind).symm
      | false =>
          rw [if_neg Bool.false_ne_true]
          have apart : (∀ next ∈ tokens.head?, token.Apart next) ↔
              ∀ c ∈ (tokens.flatMap Token.layout).head?,
                Lexeme.isIndex c = false := by
            cases tokens with
            | nil => simp
            | cons next tokens =>
                have iff := apart_iff (others next List.mem_cons_self) behind
                simpa using iff (tokens.flatMap Token.layout)
          rw [apart]
          constructor
          · intro cut
            have ends := head?_of_mapM_within found cut
            rw [Lexeme.within_eq_cons lexeme ends, complete] at cut
            exact ⟨ends, cut⟩
          · rintro ⟨ends, chain⟩
            rw [Lexeme.within_eq_cons lexeme ends, complete]
            exact chain

/-- A text that is the layout of tokens of the language, at least one, is cut into
them exactly if each is apart from the one in front of it. -/
theorem tokens_layout_iff
    {whole : String}
    (written : whole.toList = tokens.flatMap Token.layout)
    (known : ∀ token ∈ tokens, language.HasToken token)
    (nonempty : tokens ≠ []) :
    language.tokens whole = .ok tokens ↔ tokens.IsChain Token.Apart := by
  have cut := mapM_classify_layout_iff valid known
  rw [← cut, ← written, Language.tokens]
  split
  · next empty =>
      rw [Lexeme.ofText] at empty
      rw [empty]
      refine iff_of_false (fun lexes => ?_) fun lexes => ?_
      · split at lexes
        · cases lexes
          exact nonempty rfl
        · cases lexes
      · cases lexes
        exact nonempty rfl
  · exact Iff.rfl

end

end Language
end SymbolicLogic
