import SymbolicLogic.Proofs.Expression.Readings
import SymbolicLogic.Proofs.Rendering.Rereading
import SymbolicLogic.Proofs.Session.Growth

/-!
# Renderings of instantiated formulas

Matching formulas that were read binds metavariables to parts of them. Putting these
values into another pattern gives trees that were never read themselves, but every node
of them is made of tokens of the language. So their renderings are read, though a
negation may be read with another symbol than it was instantiated with.
-/

namespace SymbolicLogic

open Grammar Session Matching

/-- Every value is made of tokens of the language and accepted by the family of its
key. -/
structure Session.IsWritable (session : Session) (language : Language) : Prop where
  wellSorted : session.IsWellSorted
  values (key : Metavariable) (value : Expression) :
    session.value? key = some value -> value.IsWritable language

section

variable {language : Language}

/-- What a language can write has parts that it can write. -/
theorem Expression.hereditary_isWritable :
    Hereditary fun expression => expression.IsWritable language where
  part member writable := writable.part member
  carrier writable := by
    rwa [withoutTransform_of_plain writable.whole.1]
  sides pending writable := by
    cases writable.whole.1.symm.trans pending

/-- Where parts of what can be written are matched, the values can be written. -/
theorem Matching.StepLaw.isWritable :
    StepLaw (fun before after => before.IsWritable language -> after.IsWritable language)
      fun expression => expression.IsWritable language where
  refl _ := id
  trans first second := second ∘ first
  meet metavariable {concrete} writable session values := by
    have grows := metavariable.growsTo_meet concrete session
    refine ⟨grows.isWellSorted values.wellSorted, fun key value has => ?_⟩
    rcases metavariable.value?_meet_eq_or concrete session has with has | rfl
    · exact values.values key value has
    · exact writable

namespace Session.IsWritable

variable {session : Session} (values : session.IsWritable language)

include values

/-- Matching what a language can write leaves values that it can write. -/
theorem matchAgainst
    (pattern : Formula)
    {concrete : Formula}
    (writable : (Expression.formula concrete).IsWritable language) :
    ((pattern.matchAgainst concrete).runFrom session).2.IsWritable language :=
  StepLaw.isWritable.runLaw.formula Expression.hereditary_isWritable pattern concrete
    writable session values

/-- What stands for a bound variable is a variable that can be bound. -/
theorem binds_readBy
    {boundVariable : Term}
    (binds : language.Binds boundVariable) :
    language.Binds (boundVariable.readBy (.instantiate session)) := by
  obtain ⟨token, bound, known⟩ := binds
  cases bound with
  | objectVariable symbol => exact ⟨_, .objectVariable symbol, known⟩
  | variableMeta symbol =>
      have read : (Term.leaf .variableMeta symbol).readBy (.instantiate session) =
          ((session.value? ⟨.objectVariable, symbol, []⟩).bind
            Expression.term?).getD (.leaf .variableMeta symbol) := rfl
      cases found : session.value? ⟨.objectVariable, symbol, []⟩ with
      | none =>
          rw [read, found]
          exact ⟨_, .variableMeta symbol, known⟩
      | some value =>
          have writable := (values.values _ value found).whole.2
          have accepts := values.wellSorted.accepts_of_value? found
          rw [read, found]
          obtain ⟨other, rfl⟩ := MetaFamily.exists_of_accepts_objectVariable accepts
          exact ⟨_, .objectVariable other, writable⟩

/-- A node that stays is written with the same tokens. -/
theorem hasTokens_readBy
    {expression : Expression}
    (plain : expression.transform? = none)
    (keeps : (Reading.instantiate session).Keeps expression)
    (known : expression.HasTokens language) :
    (expression.readBy (.instantiate session)).HasTokens language := by
  cases isMetavariable : expression.metaNode? with
  | some metavariable =>
      have writes := Expression.writes_of_metaNode? plain isMetavariable
      rw [writes.readBy_of_keeps keeps]
      cases writes with
      | formulaLeaf | termLeaf => exact known
      | complexFormula | complexTerm =>
          exact ⟨known.1, by simpa [Term.readAllBy_eq_map] using known.2.1, known.2.2⟩
  | none =>
      rcases expression with (shape | _) | (shape | _)
      · cases shape with
        | leaf kind symbol =>
            cases kind <;> cases isMetavariable
            exact known
        | relation symbol args =>
            exact ⟨known.1, by simpa [Term.readAllBy_eq_map] using known.2⟩
        | complexMeta => cases isMetavariable
        | comparison | negation | binary => exact known
        | quantified symbol quantifier boundVariable restriction scope =>
            refine ⟨known.1, values.binds_readBy known.2.1, ?_⟩
            cases restriction <;> exact known.2.2
      · cases plain
      · cases shape with
        | leaf kind symbol => cases kind <;> cases isMetavariable <;> exact known
        | apply head symbol args brackets =>
            cases head <;> cases isMetavariable
            exact ⟨known.1, by simpa [Term.readAllBy_eq_map] using known.2.1,
              known.2.2⟩
        | operation => exact known
      · cases plain

/-- What is instantiated from what can be written can be written. -/
theorem readBy
    {expression : Expression}
    (writable : expression.IsWritable language) :
    (expression.readBy (.instantiate session)).IsWritable language := by
  induction expression using Expression.nodeInduction with
  | plain expression plain inductionHypothesis =>
      rcases Expression.meaning_or_keeps (.instantiate session) plain with
        ⟨_, -, meaning⟩ | keeps
      · exact values.values _ _ meaning
      refine .of_parts ⟨Expression.transform?_readBy_of_keeps plain keeps,
        values.hasTokens_readBy plain keeps writable.whole.2⟩ ?_
      rw [Expression.children_readBy_of_keeps plain keeps]
      exact List.forall_mem_map.mpr fun part member =>
        inductionHypothesis part member (writable.part member)
  | transformed expression transform pending =>
      cases writable.whole.1.symm.trans pending

end Session.IsWritable

/-- The session is reached from a new one by matches that succeed, of formulas that the
language reads and that carry no substitutions. -/
inductive Language.Reaches (language : Language) : Session -> Prop
  | new : Reaches language .empty
  | matched
      {before after : Session}
      {patternText concreteText : String}
      {pattern concrete : Formula}
      (reached : Reaches language before)
      (readPattern : language.parseFormula patternText = .ok pattern)
      (barePattern : (Expression.formula pattern).IsBare)
      (readConcrete : language.parseFormula concreteText = .ok concrete)
      (bareConcrete : (Expression.formula concrete).IsBare)
      (succeeds : (pattern.matchAgainst concrete).Succeeds before after) :
      Reaches language after

namespace Language

variable (valid : language.validate = .ok ())
  (negates : language.HasToken (.negation language.negationSymbol))

include valid negates

/-- What was read without substitutions can be written. -/
theorem isWritable_of_parseFormula
    {text : String}
    {whole : Formula}
    (read : language.parseFormula text = .ok whole)
    (bare : (Expression.formula whole).IsBare) :
    (Expression.formula whole).IsWritable language := by
  obtain ⟨tokens, derivation, -, known⟩ := exists_phrase_of_parseFormula read
  exact derivation.isWritable valid negates known bare

/-- A session that was reached by reading texts has values that the language can write. -/
theorem Reaches.isWritable
    {session : Session}
    (reached : language.Reaches session) : session.IsWritable language := by
  induction reached with
  | new => exact ⟨.empty, nofun⟩
  | @matched _ _ _ _ pattern _ _ _ _ readConcrete bareConcrete succeeds
      inductionHypothesis =>
      have after := inductionHypothesis.matchAgainst pattern
        (isWritable_of_parseFormula valid negates readConcrete bareConcrete)
      rw [succeeds] at after
      exact after

end Language

end

namespace Language

/-- In a session of formulas that were read, a pattern that was read is instantiated to a
formula whose rendering is read. It is read as the same formula exactly if every
negation that is shown by a complement glyph is one by the symbol that the glyph is read
with. -/
theorem parseFormula_instantiate
    {session : Session}
    (reached : predicate.Reaches session)
    {text : String}
    {pattern : Formula}
    (read : predicate.parseFormula text = .ok pattern)
    (bare : (Expression.formula pattern).IsBare) :
    let whole := session.instantiateFormula pattern
    let again := whole.asWrittenWhole predicate.negationSymbol
    predicate.parseFormula whole.text = .ok again ∧
      (again.same whole = true ↔
        (Expression.formula whole).Everywhere fun node =>
          node.ComplementsBy predicate.negationSymbol) := by
  intro whole again
  have builtin : predicate ∈ Registry.builtin.languages := by decide
  have valid := validate_of_mem_builtin builtin
  have negates : predicate.HasToken (.negation predicate.negationSymbol) :=
    ⟨⟨'~', []⟩, by simp, by rfl⟩
  have writable : (Expression.formula whole).IsWritable predicate :=
    (reached.isWritable valid negates).readBy
      (isWritable_of_parseFormula valid negates read bare)
  exact ⟨parseFormula_text_of_isWritable valid (indexFree_of_mem_builtin builtin)
    (by decide) (by decide) writable, whole.same_asWrittenWhole_iff _⟩

/-- The metavariable `α` as a formula. -/
def alpha : Formula :=
  .leaf .formulaMeta ⟨"α", .formulaMeta⟩

def negated (glyph : String) (operand : Formula) : Formula :=
  .plain (.negation ⟨glyph, .connective⟩ operand)

theorem parseFormula_negated_alpha
    {text glyph : String}
    (lexes : predicate.tokens text =
      .ok [.negation ⟨glyph, .connective⟩, .formulaMeta ⟨"α", .formulaMeta⟩]) :
    predicate.parseFormula text = .ok (negated glyph alpha) :=
  (parseFormula_eq_ok_iff lexes).mpr
    ⟨.bracketed (.bare (.negation _ (.bare (.leaf .formulaMeta _)))), trivial⟩

theorem isBare_negated_alpha (glyph : String) :
    (Expression.formula (negated glyph alpha)).IsBare :=
  .of_parts rfl (List.forall_mem_singleton.mpr (.of_parts rfl nofun))

/-- Where `α` stands for `P ∧ Q`, the pattern `¬α` is instantiated to a formula with the
rendering `¬(P ∧ Q)`, and is read back from it. -/
theorem parseFormula_instantiate_conjunction :
    let letter (text : String) : Formula := .leaf .letter ⟨text, .sentenceLetter⟩
    let conjunction : Formula := .plain (.binary ⟨"∧", .connective⟩ .conjunction
      (letter "P") (letter "Q") none)
    let session := ((alpha.matchAgainst conjunction).runFrom .empty).2
    let whole := session.instantiateFormula (negated "¬" alpha)
    predicate.Reaches session ∧
      predicate.parseFormula "¬α" = .ok (negated "¬" alpha) ∧
      (Expression.formula (negated "¬" alpha)).IsBare ∧
      whole.text = "¬(P ∧ Q)" ∧
      ∃ again, predicate.parseFormula whole.text = .ok again ∧
        again.same whole = true := by
  intro letter conjunction session whole
  have lexesPattern : predicate.tokens "α" =
      .ok [.formulaMeta ⟨"α", .formulaMeta⟩] := by rfl
  have lexesConcrete : predicate.tokens "P ∧ Q" =
      .ok [.letter ⟨"P", .sentenceLetter⟩, .connective ⟨"∧", .connective⟩ .conjunction,
        .letter ⟨"Q", .sentenceLetter⟩] := by rfl
  have readPattern : predicate.parseFormula "α" = .ok alpha :=
    (parseFormula_eq_ok_iff lexesPattern).mpr
      ⟨.bracketed (.bare (.leaf .formulaMeta _)), trivial⟩
  have readConcrete : predicate.parseFormula "P ∧ Q" = .ok conjunction :=
    (parseFormula_eq_ok_iff lexesConcrete).mpr ⟨.binary _ _
      (.bare (.leaf .letter _)) (.bare (.leaf .letter _)), trivial, trivial⟩
  have letters (holds : Expression -> Prop)
      (each : ∀ text, holds (.formula (letter text))) :
      ∀ part ∈ (Expression.formula conjunction).children,
        part.Everywhere holds :=
    List.forall_mem_cons.mpr ⟨.of_parts (each "P") nofun,
      List.forall_mem_singleton.mpr (.of_parts (each "Q") nofun)⟩
  have reached : predicate.Reaches session :=
    .matched .new readPattern (.of_parts rfl nofun) readConcrete
      (.of_parts rfl (letters _ fun _ => rfl)) (by rfl)
  have read := parseFormula_negated_alpha
    (by rfl : predicate.tokens "¬α" = .ok [.negation ⟨"¬", .connective⟩, _])
  have complements : (Expression.formula whole).Everywhere fun node =>
      node.ComplementsBy predicate.negationSymbol :=
    .of_parts nofun (List.forall_mem_singleton.mpr
      (.of_parts trivial (letters _ fun _ => trivial)))
  obtain ⟨readAgain, same⟩ :=
    parseFormula_instantiate reached read (isBare_negated_alpha "¬")
  exact ⟨reached, read, isBare_negated_alpha "¬", by rfl, _, readAgain,
    same.mpr complements⟩

/-- Where `α` stands for the comparison in `a ≠ b`, the pattern `¬α` is instantiated to a
formula with the rendering `a ≠ b`, which is read as a negation by `~`. -/
theorem parseFormula_instantiate_complement :
    let constant (text : String) : Term := .leaf .constant ⟨text, .constant⟩
    let different : Formula :=
      .complemented ⟨"~", .connective⟩ ⟨"=", .infixRelation⟩ ⟨"≠", .infixRelation⟩
        (constant "a") (constant "b")
    let session := (((negated "~" alpha).matchAgainst different).runFrom .empty).2
    let whole := session.instantiateFormula (negated "¬" alpha)
    predicate.Reaches session ∧
      predicate.parseFormula "¬α" = .ok (negated "¬" alpha) ∧
      (Expression.formula (negated "¬" alpha)).IsBare ∧
      whole.text = "a ≠ b" ∧
      predicate.parseFormula whole.text = .ok different ∧
      different.same whole = false := by
  intro constant different session whole
  have lexes : predicate.tokens "a ≠ b" =
      .ok [.constant ⟨"a", .constant⟩,
        .complement ⟨"=", .infixRelation⟩ ⟨"≠", .infixRelation⟩,
        .constant ⟨"b", .constant⟩] := by rfl
  have read : predicate.parseFormula "a ≠ b" = .ok different :=
    (parseFormula_eq_ok_iff lexes).mpr ⟨.bracketed (.bare
      (.complemented _ _ (.leaf .constant _) (.leaf .constant _))), trivial⟩
  have bare : (Expression.formula different).IsBare :=
    .of_parts rfl (List.forall_mem_singleton.mpr (.of_parts rfl
      (List.forall_mem_cons.mpr ⟨.of_parts rfl nofun,
        List.forall_mem_singleton.mpr (.of_parts rfl nofun)⟩)))
  have readPattern := parseFormula_negated_alpha
    (by rfl : predicate.tokens "~α" = .ok [.negation ⟨"~", .connective⟩, _])
  have readOther := parseFormula_negated_alpha
    (by rfl : predicate.tokens "¬α" = .ok [.negation ⟨"¬", .connective⟩, _])
  have written : whole.text = "a ≠ b" := by rfl
  exact ⟨.matched .new readPattern (isBare_negated_alpha "~") read bare (by rfl),
    readOther, isBare_negated_alpha "¬", written, written ▸ read, by rfl⟩

end Language
end SymbolicLogic
