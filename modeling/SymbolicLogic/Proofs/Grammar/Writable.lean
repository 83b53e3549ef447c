import SymbolicLogic.Proofs.Expression.Nodes
import SymbolicLogic.Proofs.Grammar.Derivation
import SymbolicLogic.Proofs.Token.Spelling

/-!
# Expressions made of tokens

What is read from a text without substitutions has none, and each of its nodes is
written with tokens of the language: its symbols, its brackets, and the variable that
it binds. This is said of each node by itself, apart from how the text was put
together. So it stays true of what is put together in another way.
-/

namespace SymbolicLogic

open Grammar

namespace Language

variable (language : Language)

/-- A quantifier of the language can bind the variable. -/
def Binds (boundVariable : Term) : Prop :=
  ∃ token, BoundVariable token boundVariable ∧ language.HasToken token

end Language

/-- The node is written with tokens of the language, whatever its parts are. -/
def TermShape.HasTokens (shape : TermShape) (language : Language) : Prop :=
  match shape with
  | .leaf kind symbol => language.HasToken (leafToken kind symbol)
  | .apply head symbol args brackets =>
      language.HasToken (headToken head symbol) ∧ args ≠ [] ∧
        language.HasBrackets brackets
  | .operation symbol _ _ brackets =>
      language.HasToken (.infixFunction symbol) ∧ language.HasBrackets brackets

def Restriction.HasTokens (restriction : Restriction) (language : Language) : Prop :=
  match restriction with
  | .unrestricted => True
  | .bounded relation _ brackets =>
      language.HasToken (.infixRelation relation) ∧ language.HasBrackets brackets
  | .restricted divider _ brackets =>
      language.HasToken (.divider divider) ∧ language.HasBrackets brackets

/-- The node is written with tokens of the language, whatever its parts are. A
comparison can be written with its own glyph and, if it has one, with its complement
glyph. -/
def FormulaShape.HasTokens (shape : FormulaShape) (language : Language) : Prop :=
  match shape with
  | .leaf kind symbol => language.HasToken (formulaLeafToken kind symbol)
  | .relation symbol args =>
      (∃ letter : Symbol, symbol = letter.withRole .relation ∧
        language.HasToken (.letter letter)) ∧ args ≠ []
  | .comparison symbol _ _ complement =>
      language.HasToken (.infixRelation symbol) ∧
        ∀ glyph ∈ complement, language.HasToken (.complement symbol glyph)
  | .complexMeta symbol params brackets =>
      language.HasToken (.formulaMeta symbol) ∧ params ≠ [] ∧
        language.HasBrackets brackets
  | .negation symbol _ => language.HasToken (.negation symbol)
  | .binary symbol connective _ _ brackets =>
      language.HasToken (.connective symbol connective) ∧
        ∀ pair ∈ brackets, language.HasBrackets pair
  | .quantified symbol quantifier boundVariable restriction _ =>
      language.HasToken (.quantifier symbol quantifier) ∧
        language.Binds boundVariable ∧ restriction.HasTokens language

namespace Expression

def HasTokens (expression : Expression) (language : Language) : Prop :=
  match expression with
  | .formula f => f.shape.HasTokens language
  | .term t => t.shape.HasTokens language

/-- No substitution is pending, and every node is written with tokens of the
language. -/
def IsWritable (expression : Expression) (language : Language) : Prop :=
  expression.Everywhere fun node =>
    node.transform? = none ∧ node.HasTokens language

/-- What can be written has nothing pending. -/
theorem IsWritable.isBare
    {expression : Expression}
    {language : Language}
    (writable : expression.IsWritable language) : expression.IsBare :=
  fun node occurs => (writable node occurs).1

end Expression

namespace Language

variable {language : Language}

/-- If a complement glyph is a token, so is the glyph of the relation. -/
theorem hasToken_infixRelation
    (valid : language.validate = .ok ())
    {relation complement : Symbol}
    (known : language.HasToken (.complement relation complement)) :
    language.HasToken (.infixRelation relation) := by
  obtain ⟨lexeme, -, found⟩ := known
  obtain ⟨_, member, rfl⟩ := exists_relation_of_classify found
  exact ⟨_, by simp, classify_infixRelation valid member⟩

/-- What a quantifier can bind is written with a token. -/
theorem Binds.isWritable
    {boundVariable : Term}
    (binds : language.Binds boundVariable) :
    (Expression.term boundVariable).IsWritable language := by
  obtain ⟨token, bound, known⟩ := binds
  cases bound <;> exact .of_parts ⟨rfl, known⟩ nofun

end Language

theorem Expression.isWritable_comparison
    {language : Language}
    {symbol : Symbol}
    {complement : Option Symbol}
    {left right : Term}
    (known : language.HasToken (.infixRelation symbol))
    (complements : ∀ glyph ∈ complement,
      language.HasToken (.complement symbol glyph))
    (lefts : (Expression.term left).IsWritable language)
    (rights : (Expression.term right).IsWritable language) :
    (Expression.formula
      (.plain (.comparison symbol left right complement))).IsWritable language :=
  .of_parts ⟨rfl, known, complements⟩
    (List.forall_mem_cons.mpr ⟨lefts, List.forall_mem_singleton.mpr rights⟩)

namespace Grammar

section

variable {language : Language}

theorem ArgumentsDerivation.ne_nil
    {tokens : List Token}
    {values : List Term}
    (derivation : ArgumentsDerivation tokens values) : values ≠ [] := by
  cases derivation <;> exact List.cons_ne_nil _ _

mutual

/-- A bare term that was read can be written. -/
theorem TermDerivation.isWritable
    {tokens : List Token}
    {value : Term}
    (derivation : TermDerivation tokens value)
    (known : ∀ token ∈ tokens, language.HasToken token)
    (bare : (Expression.term value).IsBare) :
    (Expression.term value).IsWritable language := by
  match derivation with
  | .leaf kind symbol =>
      exact .of_parts ⟨rfl, known _ List.mem_cons_self⟩ nofun
  | .apply head symbol brackets args =>
      simp only [List.forall_mem_cons, List.forall_mem_append] at known
      obtain ⟨headKnown, opening, argsKnown, closing, -⟩ := known
      have writable := ArgumentsDerivation.isWritable args argsKnown fun _ member =>
        bare.part (List.mem_map_of_mem member)
      exact .of_parts ⟨rfl, headKnown, args.ne_nil, opening, closing⟩
        (List.forall_mem_map.mpr writable)
  | .operation symbol brackets left right =>
      simp only [List.forall_mem_cons, List.forall_mem_append] at known
      obtain ⟨opening, leftKnown, symbolKnown, rightKnown, closing, -⟩ := known
      obtain ⟨leftBare, rightBare⟩ := List.forall_mem_cons.mp bare.parts
      exact .of_parts ⟨rfl, symbolKnown, opening, closing⟩
        (List.forall_mem_cons.mpr ⟨left.isWritable leftKnown leftBare,
          List.forall_mem_singleton.mpr (right.isWritable rightKnown
            (List.forall_mem_singleton.mp rightBare))⟩)

theorem OperandDerivation.isWritable
    {tokens : List Token}
    {value : Term}
    (derivation : OperandDerivation tokens value)
    (known : ∀ token ∈ tokens, language.HasToken token)
    (bare : (Expression.term value).IsBare) :
    (Expression.term value).IsWritable language := by
  match derivation with
  | .bare carrier => exact TermDerivation.isWritable carrier known bare
  | .transformed _ _ => cases bare.whole

theorem ArgumentsDerivation.isWritable
    {tokens : List Token}
    {values : List Term}
    (derivation : ArgumentsDerivation tokens values)
    (known : ∀ token ∈ tokens, language.HasToken token)
    (bare : ∀ value ∈ values, (Expression.term value).IsBare) :
    ∀ value ∈ values, (Expression.term value).IsWritable language := by
  match derivation with
  | .single only =>
      exact List.forall_mem_singleton.mpr
        (OperandDerivation.isWritable only known (bare _ List.mem_cons_self))
  | .cons first others =>
      simp only [List.forall_mem_cons, List.forall_mem_append] at known bare ⊢
      exact ⟨OperandDerivation.isWritable first known.1 bare.1,
        ArgumentsDerivation.isWritable others known.2.2 bare.2⟩

end

/-- So can terms side by side. -/
theorem Juxtaposed.isWritable
    {tokens : List Token}
    {values : List Term}
    (derivations : Juxtaposed TermDerivation tokens values)
    (known : ∀ token ∈ tokens, language.HasToken token)
    (bare : ∀ value ∈ values, (Expression.term value).IsBare) :
    ∀ value ∈ values, (Expression.term value).IsWritable language := by
  induction derivations with
  | nil => exact List.forall_mem_nil _
  | cons first _ inductionHypothesis =>
      simp only [List.forall_mem_cons, List.forall_mem_append] at known bare ⊢
      exact ⟨first.isWritable known.1 bare.1,
        inductionHypothesis known.2 bare.2⟩

theorem Separated.isWritable
    {tokens : List Token}
    {values : List Term}
    (derivations : Separated TermDerivation tokens values)
    (known : ∀ token ∈ tokens, language.HasToken token)
    (bare : ∀ value ∈ values, (Expression.term value).IsBare) :
    values ≠ [] ∧ ∀ value ∈ values, (Expression.term value).IsWritable language := by
  induction derivations with
  | single only =>
      exact ⟨List.cons_ne_nil _ _, List.forall_mem_singleton.mpr
        (only.isWritable known (bare _ List.mem_cons_self))⟩
  | cons first _ inductionHypothesis =>
      simp only [List.forall_mem_cons, List.forall_mem_append] at known bare ⊢
      exact ⟨List.cons_ne_nil _ _, first.isWritable known.1 bare.1,
        (inductionHypothesis known.2.2 bare.2).2⟩

variable {negationSymbol : Symbol}

mutual

theorem UnitDerivation.isWritable
    (valid : language.validate = .ok ())
    (negates : language.HasToken (.negation negationSymbol))
    {tokens : List Token}
    {shape : FormulaShape}
    (derivation : UnitDerivation negationSymbol tokens shape)
    (known : ∀ token ∈ tokens, language.HasToken token)
    (bare : (Expression.formula (.plain shape)).IsBare) :
    (Expression.formula (.plain shape)).IsWritable language := by
  have parts := bare.parts
  match derivation with
  | .leaf kind symbol =>
      exact .of_parts ⟨rfl, known _ List.mem_cons_self⟩ nofun
  | .relation symbol args nonempty =>
      obtain ⟨letterKnown, argsKnown⟩ := List.forall_mem_cons.mp known
      exact .of_parts ⟨rfl, ⟨symbol, rfl, letterKnown⟩, nonempty⟩
        (List.forall_mem_map.mpr
          (args.isWritable argsKnown (List.forall_mem_map.mp parts)))
  | .comparison symbol left right =>
      simp only [List.forall_mem_cons, List.forall_mem_append] at known
      obtain ⟨leftBare, rightBare⟩ := List.forall_mem_cons.mp parts
      exact Expression.isWritable_comparison known.2.1 nofun
        (left.isWritable known.1 leftBare)
        (right.isWritable known.2.2 (List.forall_mem_singleton.mp rightBare))
  | .complemented relation complement left right =>
      simp only [List.forall_mem_cons, List.forall_mem_append] at known
      have operandBare := List.forall_mem_singleton.mp parts
      obtain ⟨leftBare, rightBare⟩ :=
        List.forall_mem_cons.mp operandBare.parts
      have complements : ∀ glyph ∈ some complement,
          language.HasToken (.complement relation glyph) := by simpa using known.2.1
      have operand := Expression.isWritable_comparison
        (Language.hasToken_infixRelation valid known.2.1) complements
        (left.isWritable known.1 leftBare)
        (right.isWritable known.2.2 (List.forall_mem_singleton.mp rightBare))
      exact .of_parts ⟨rfl, negates⟩ (List.forall_mem_singleton.mpr operand)
  | .complexMeta symbol brackets params =>
      simp only [List.forall_mem_cons, List.forall_mem_append] at known
      obtain ⟨symbolKnown, opening, paramsKnown, closing, -⟩ := known
      obtain ⟨nonempty, writable⟩ :=
        params.isWritable paramsKnown (List.forall_mem_map.mp parts)
      exact .of_parts ⟨rfl, symbolKnown, nonempty, opening, closing⟩
        (List.forall_mem_map.mpr writable)
  | .negation symbol operand =>
      obtain ⟨symbolKnown, operandKnown⟩ := List.forall_mem_cons.mp known
      exact .of_parts ⟨rfl, symbolKnown⟩ (List.forall_mem_singleton.mpr
        (FormulaDerivation.isWritable valid negates operand operandKnown
          (List.forall_mem_singleton.mp parts)))
  | .binary symbol connective brackets left right =>
      simp only [List.forall_mem_cons, List.forall_mem_append] at known
      obtain ⟨opening, leftKnown, symbolKnown, rightKnown, closing, -⟩ := known
      obtain ⟨leftBare, rightBare⟩ := List.forall_mem_cons.mp parts
      exact .of_parts ⟨rfl, symbolKnown, by rintro _ ⟨⟩; exact ⟨opening, closing⟩⟩
        (List.forall_mem_cons.mpr
          ⟨FormulaDerivation.isWritable valid negates left leftKnown leftBare,
            List.forall_mem_singleton.mpr (FormulaDerivation.isWritable valid negates right
              rightKnown (List.forall_mem_singleton.mp rightBare))⟩)
  | .quantified quantifiers scope =>
      obtain ⟨quantifiersKnown, scopeKnown⟩ := List.forall_mem_append.mp known
      obtain ⟨variableBare, others⟩ := List.forall_mem_cons.mp parts
      obtain ⟨restrictionBare, scopeBare⟩ := List.forall_mem_append.mp others
      obtain ⟨tokens, writable⟩ :=
        PrefixDerivation.isWritable valid negates quantifiers quantifiersKnown restrictionBare
      exact .of_parts ⟨rfl, tokens⟩ (List.forall_mem_cons.mpr
        ⟨tokens.2.1.isWritable, List.forall_mem_append.mpr
          ⟨writable, List.forall_mem_singleton.mpr (FormulaDerivation.isWritable valid negates
            scope scopeKnown (List.forall_mem_singleton.mp scopeBare))⟩⟩)

/-- A bare formula that was read can be written. -/
theorem FormulaDerivation.isWritable
    (valid : language.validate = .ok ())
    (negates : language.HasToken (.negation negationSymbol))
    {tokens : List Token}
    {whole : Formula}
    (derivation : FormulaDerivation negationSymbol tokens whole)
    (known : ∀ token ∈ tokens, language.HasToken token)
    (bare : (Expression.formula whole).IsBare) :
    (Expression.formula whole).IsWritable language := by
  match derivation with
  | .bare carrier => exact UnitDerivation.isWritable valid negates carrier known bare
  | .transformed _ _ => cases bare.whole

theorem PrefixDerivation.isWritable
    (valid : language.validate = .ok ())
    (negates : language.HasToken (.negation negationSymbol))
    {tokens : List Token}
    {symbol : Symbol}
    {kind : Quantifier}
    {boundVariable : Term}
    {restriction : Restriction}
    (derivation : PrefixDerivation negationSymbol tokens symbol kind boundVariable
      restriction)
    (known : ∀ token ∈ tokens, language.HasToken token)
    (bare : ∀ part ∈ FormulaShape.restrictionChildren restriction, part.IsBare) :
    (language.HasToken (.quantifier symbol kind) ∧ language.Binds boundVariable ∧
        restriction.HasTokens language) ∧
      ∀ part ∈ FormulaShape.restrictionChildren restriction,
        part.IsWritable language := by
  match derivation with
  | .unrestricted _ _ binds =>
      simp only [List.forall_mem_cons] at known
      exact ⟨⟨known.1, ⟨_, binds, known.2.1⟩, trivial⟩, List.forall_mem_nil _⟩
  | .bounded _ _ binds relation brackets bound =>
      simp only [List.forall_mem_cons, List.forall_mem_append] at known
      obtain ⟨opening, quantifier, variableKnown, relationKnown, boundKnown,
        closing, -⟩ := known
      exact ⟨⟨quantifier, ⟨_, binds, variableKnown⟩, relationKnown, opening, closing⟩,
        List.forall_mem_singleton.mpr
          (bound.isWritable boundKnown (List.forall_mem_singleton.mp bare))⟩
  | .restricted _ _ binds divider brackets inner =>
      simp only [List.forall_mem_cons, List.forall_mem_append] at known
      obtain ⟨opening, quantifier, variableKnown, dividerKnown, innerKnown,
        closing, -⟩ := known
      exact ⟨⟨quantifier, ⟨_, binds, variableKnown⟩, dividerKnown, opening, closing⟩,
        List.forall_mem_singleton.mpr (FormulaDerivation.isWritable valid negates inner
          innerKnown (List.forall_mem_singleton.mp bare))⟩

end

/-- A bare sentence that was read can be written. -/
theorem SentenceDerivation.isWritable
    (valid : language.validate = .ok ())
    (negates : language.HasToken (.negation negationSymbol))
    {tokens : List Token}
    {whole : Formula}
    (derivation : SentenceDerivation negationSymbol tokens whole)
    (known : ∀ token ∈ tokens, language.HasToken token)
    (bare : (Expression.formula whole).IsBare) :
    (Expression.formula whole).IsWritable language := by
  cases derivation with
  | bracketed only => exact only.isWritable valid negates known bare
  | binary symbol connective left right =>
      simp only [List.forall_mem_cons, List.forall_mem_append] at known
      obtain ⟨leftBare, rightBare⟩ := List.forall_mem_cons.mp bare.parts
      exact .of_parts ⟨rfl, known.2.1, nofun⟩ (List.forall_mem_cons.mpr
        ⟨left.isWritable valid negates known.1 leftBare,
          List.forall_mem_singleton.mpr (right.isWritable valid negates known.2.2
            (List.forall_mem_singleton.mp rightBare))⟩)

end

end Grammar
end SymbolicLogic
