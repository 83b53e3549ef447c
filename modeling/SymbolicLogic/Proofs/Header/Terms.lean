import SymbolicLogic.Proofs.Header.Glyphs
import SymbolicLogic.Proofs.Rendering.Writing

/-!
# Terms in headers

Nothing in the rendering of a term ends an item: it holds no operator, and each
blank in it stands before a symbol or a bracket. The same goes for a pending
substitution.
-/

namespace SymbolicLogic

open Grammar Rendering Segmentation

/-- What the header of a language needs: the language is valid, round and square
brackets are among its brackets, and no glyph of it is an index character. -/
structure Language.SuitsHeaders (language : Language) : Prop where
  valid : language.validate = .ok ()
  indexFree : language.IndexFree
  round : Brackets.round ∈ language.brackets
  square : Brackets.square ∈ language.brackets

namespace Language.SuitsHeaders

variable {language : Language} (suits : language.SuitsHeaders)

include suits

theorem word
    {token : Token}
    (known : language.HasToken token)
    (word : token.isWord = true) :
    language.segmentation.IsWord token.text.toList :=
  isWord_of_hasToken suits.valid suits.indexFree known word

theorem pair
    {brackets : Brackets}
    (knownOpening : language.HasToken (.opening brackets))
    (knownClosing : language.HasToken (.closing brackets)) :
    language.segmentation.IsPair brackets :=
  isPair_of_hasBrackets suits.valid ⟨knownOpening, knownClosing⟩

theorem pair_of_mem
    {brackets : Brackets}
    (member : brackets ∈ language.brackets) :
    language.segmentation.IsPair brackets :=
  isPair_of_hasBrackets suits.valid (hasBrackets_of_mem suits.valid member)

end Language.SuitsHeaders

/-- The characters of the runs. -/
def TextRun.characters (runs : List TextRun) : List Char :=
  (TextRun.plainText runs).toList

namespace TextRun

@[simp] theorem characters_nil : characters [] = [] := rfl

@[simp] theorem characters_cons (run : TextRun) (runs : List TextRun) :
    characters (run :: runs) = run.text.toList ++ characters runs := by
  rw [characters, plainText_cons, String.toList_append, characters]

@[simp] theorem characters_append (left right : List TextRun) :
    characters (left ++ right) = characters left ++ characters right := by
  rw [characters, plainText_append, String.toList_append, characters,
    characters]

@[simp] theorem characters_enclosed
    (brackets : Brackets)
    (depth : Nat)
    (runs : List TextRun) :
    characters (enclosed brackets depth runs) =
      enclosedText brackets (characters runs) := by
  simp [enclosed, bracket, enclosedText]

@[simp] theorem characters_spaced
    (left : List TextRun)
    (operator : Symbol)
    (right : List TextRun) :
    characters (spaced left operator right) =
      characters left ++
        ' ' :: (operator.text.toList ++ ' ' :: characters right) := by
  simp [spaced, space, symbol]

end TextRun

namespace Segmentation

/-- The text joins, beginning with a symbol or a bracket. -/
structure IsItemText (cutting : Segmentation) (text : List Char) : Prop where
  begins : cutting.Begins text false
  joins : cutting.Joins text

namespace IsItemText

variable {cutting : Segmentation} {text text' : List Char} {brackets : Brackets}

theorem of_isWord (word : cutting.IsWord text) : cutting.IsItemText text :=
  ⟨word.begins, .of_isWord word⟩

theorem append
    (item : cutting.IsItemText text)
    (item' : cutting.IsItemText text') : cutting.IsItemText (text ++ text') :=
  ⟨item.begins.append text', item.joins.append item'.joins⟩

theorem enclosed
    (pair : cutting.IsPair brackets)
    (item : cutting.IsItemText text) :
    cutting.IsItemText (enclosedText brackets text) :=
  ⟨pair.begins text, item.joins.enclosed pair⟩

/-- A symbol and a blank in front. -/
theorem after_space
    {word : List Char}
    (isWord : cutting.IsWord word)
    (item : cutting.IsItemText text) :
    cutting.IsItemText (word ++ ' ' :: text) :=
  ⟨isWord.begins.append _,
    (Joins.of_isWord isWord).append (item.joins.space item.begins)⟩

/-- A symbol between two such texts, with a blank on each side. -/
theorem spaced
    {word : List Char}
    (left : cutting.IsItemText text)
    (isWord : cutting.IsWord word)
    (right : cutting.IsItemText text') :
    cutting.IsItemText (text ++ ' ' :: (word ++ ' ' :: text')) :=
  have operated := right.after_space isWord
  ⟨left.begins.append _,
    left.joins.append (operated.joins.space operated.begins)⟩

end IsItemText
end Segmentation

open TextRun

/-- The characters of the terms, with commas between them. -/
theorem characters_separated_cons
    (item next : List TextRun)
    (items : List (List TextRun)) :
    characters (separated (item :: next :: items)) =
      characters item ++
        (",".toList ++ ' ' :: characters (separated (next :: items))) := by
  simp [separated, punctuation]

mutual

theorem isItemText_term
    {language : Language}
    (suits : language.SuitsHeaders)
    {tokens : List Token}
    {value : Term}
    (derivation : TermDerivation tokens value)
    (known : ∀ token ∈ tokens, language.HasToken token)
    (depth : Nat) :
    language.segmentation.IsItemText (characters (value.pieces depth)) := by
  match derivation with
  | .leaf kind symbol =>
      have word := suits.word (known _ List.mem_cons_self)
        (by cases kind <;> rfl)
      have text_eq : (leafToken kind symbol).text = symbol.text := by
        cases kind <;> rfl
      rw [text_eq] at word
      simpa [Term.leaf, Term.pieces, TermShape.pieces, Rendering.symbol] using
        IsItemText.of_isWord word
  | .apply head symbol brackets args =>
      simp only [List.forall_mem_cons, List.forall_mem_append] at known
      obtain ⟨knownHead, knownOpening, knownArgs, knownClosing, -⟩ := known
      have word := suits.word knownHead (by cases head <;> rfl)
      have text_eq : (headToken head symbol).text = symbol.text := by
        cases head <;> rfl
      rw [text_eq] at word
      have inside := isItemText_arguments suits args knownArgs (depth + 1)
      have item := (IsItemText.of_isWord word).append
        (inside.enclosed (suits.pair knownOpening knownClosing))
      simpa [Term.pieces, TermShape.pieces, Rendering.symbol] using item
  | .operation symbol brackets left right =>
      simp only [List.forall_mem_cons, List.forall_mem_append] at known
      obtain ⟨knownOpening, knownLeft, knownSymbol, knownRight, knownClosing, -⟩ :=
        known
      have word : language.segmentation.IsWord symbol.text.toList :=
        suits.word knownSymbol rfl
      have itemLeft := isItemText_operand suits left knownLeft (depth + 1)
      have itemRight := isItemText_operand suits right knownRight (depth + 1)
      have item := (itemLeft.spaced word itemRight).enclosed
        (suits.pair knownOpening knownClosing)
      simpa [Term.pieces, TermShape.pieces] using item

theorem isItemText_operand
    {language : Language}
    (suits : language.SuitsHeaders)
    {tokens : List Token}
    {value : Term}
    (derivation : OperandDerivation tokens value)
    (known : ∀ token ∈ tokens, language.HasToken token)
    (depth : Nat) :
    language.segmentation.IsItemText (characters (value.pieces depth)) := by
  match derivation with
  | .bare carrier => exact isItemText_term suits carrier known depth
  | .transformed carrier pending =>
      obtain ⟨knownCarrier, knownPending⟩ := List.forall_mem_append.mp known
      rw [Term.pieces_withTransform carrier.transform?_eq_none,
        characters_append]
      exact (isItemText_term suits carrier knownCarrier depth).append
        (isItemText_transform suits pending knownPending)

theorem isItemText_arguments
    {language : Language}
    (suits : language.SuitsHeaders)
    {tokens : List Token}
    {values : List Term}
    (derivation : ArgumentsDerivation tokens values)
    (known : ∀ token ∈ tokens, language.HasToken token)
    (depth : Nat) :
    language.segmentation.IsItemText
      (characters (separated (Term.piecesOfAll values depth))) := by
  match derivation with
  | .single only =>
      simpa [Term.piecesOfAll, separated] using
        isItemText_operand suits only known depth
  | .cons first others =>
      simp only [List.forall_mem_cons, List.forall_mem_append] at known
      obtain ⟨knownFirst, knownComma, knownOthers⟩ := known
      have comma : language.segmentation.IsWord ",".toList :=
        suits.word knownComma rfl
      have itemFirst := isItemText_operand suits first knownFirst depth
      have itemOthers := isItemText_arguments suits others knownOthers depth
      have item := itemFirst.append (itemOthers.after_space comma)
      cases others with
      | single | cons =>
          rw [Term.piecesOfAll, Term.piecesOfAll, characters_separated_cons]
          exact item

theorem isItemText_transform
    {language : Language}
    (suits : language.SuitsHeaders)
    {tokens : List Token}
    {substitution : Transform}
    (derivation : TransformDerivation tokens substitution)
    (known : ∀ token ∈ tokens, language.HasToken token) :
    language.segmentation.IsItemText (characters substitution.pieces) := by
  match derivation with
  | .inline brackets replacement target =>
      simp only [List.forall_mem_cons, List.forall_mem_append] at known
      obtain ⟨-, knownReplacement, knownSlash, knownTarget, -⟩ := known
      have slash : language.segmentation.IsWord "/".toList :=
        suits.word knownSlash rfl
      have itemReplacement :=
        isItemText_term suits replacement knownReplacement 0
      have itemTarget := isItemText_term suits target knownTarget 0
      have item := (itemReplacement.append
        ((IsItemText.of_isWord slash).append itemTarget)).enclosed
        (suits.pair_of_mem suits.square)
      simpa [Transform.pieces, Rendering.substitution, punctuation, enclosedText,
        Brackets.square, characters, Term.text] using item
  | .stacked target replacement =>
      simp only [List.forall_mem_cons, List.forall_mem_append] at known
      obtain ⟨knownCaret, knownTarget, knownUnderscore, knownReplacement⟩ :=
        known
      have caret : language.segmentation.IsWord "^".toList :=
        suits.word knownCaret rfl
      have underscore : language.segmentation.IsWord "_".toList :=
        suits.word knownUnderscore rfl
      have itemTarget := isItemText_term suits target knownTarget 0
      have itemReplacement :=
        isItemText_term suits replacement knownReplacement 0
      have item := (IsItemText.of_isWord caret).append (itemTarget.append
        ((IsItemText.of_isWord underscore).append itemReplacement))
      simpa [Transform.pieces, Rendering.substitution, punctuation, characters,
        Term.text] using item

end

end SymbolicLogic
