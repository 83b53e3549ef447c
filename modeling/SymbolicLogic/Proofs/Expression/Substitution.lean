import Mathlib.Data.Finset.Erase
import Mathlib.Data.Finset.Lattice.Basic
import SymbolicLogic.Proofs.Expression.Scopes
import SymbolicLogic.Proofs.Lists
import SymbolicLogic.Rendering.Expression

/-!
# Substitution for variables

Substitution for a variable replaces the variable where it stands by itself, and
otherwise substitutes in the parts of a node, except in the formulas of a node that
binds the variable. From this it follows which variables are free in the result, and in
which order substitutions for two variables can be made. Nothing is renamed, so both
need that no quantifier binds a variable of what is put in.
-/

namespace SymbolicLogic

namespace Expression

/-- Substitution for a variable in the formulas of a node that may bind it. -/
def substituteUnder
    (binder? : Option String)
    (symbol : Symbol)
    (replacement : Term)
    (formula : Formula) : Formula :=
  if binder? = some symbol.text then formula
  else formula.substitute (.ofVariable symbol) replacement

section Node

variable {expression : Expression} {symbol : Symbol} {replacement : Term}

/-- The variable itself is replaced. -/
theorem substitute_of_variable (named : expression.variableName? = some symbol.text) :
    expression.substitute (.ofVariable symbol) replacement = .term replacement := by
  cases expression with
  | formula => cases named
  | term t =>
      obtain ⟨other, rfl, same⟩ := Term.exists_of_variableName? named
      simp [substitute, Term.ofVariable, Term.leaf, Term.substitute, Term.same,
        TermShape.same, same]

/-- In a node that is not the variable itself, the parts are substituted in. -/
theorem substitute_eq_mapParts
    (plain : expression.transform? = none)
    (other : expression.variableName? ≠ some symbol.text) :
    expression.substitute (.ofVariable symbol) replacement =
      expression.mapParts
        (fun term => term.substitute (.ofVariable symbol) replacement)
        (substituteUnder expression.binder? symbol replacement) := by
  match expression with
  | .formula (.plain shape) =>
      cases shape with
      | quantified _ _ boundVariable restriction scope =>
          have compared := boundVariable.same_ofVariable_iff symbol
          cases captured : boundVariable.same (.ofVariable symbol) <;>
            cases restriction <;>
              simp_all [substitute, Formula.substitute, FormulaShape.substitute,
                Restriction.substitute, mapParts, FormulaShape.mapParts,
                Restriction.mapParts, binder?, FormulaShape.binder?,
                substituteUnder]
      | _ =>
          simp [substitute, Formula.substitute, FormulaShape.substitute, mapParts,
            FormulaShape.mapParts, binder?, FormulaShape.binder?, substituteUnder,
            Term.substituteAll_eq_map]
  | .term (.plain shape) =>
      have different : (Term.plain shape).same (.ofVariable symbol) = false := by
        rw [Bool.eq_false_iff, ne_eq, Term.same_ofVariable_iff]
        exact other
      cases shape <;>
        simp [substitute, Term.substitute, TermShape.substitute, mapParts,
          TermShape.mapParts, Term.substituteAll_eq_map, different]
  | .formula (.transformed ..) | .term (.transformed ..) => cases plain

end Node

/-- A property holds of every expression without pending substitutions if a node has it
as soon as its parts do. The variable that a quantifier binds need not have it. -/
theorem bareInduction
    {motive : (expression : Expression) -> expression.IsBare -> Prop}
    (node : ∀ (expression : Expression) (bare : expression.IsBare),
      (∀ (term : Term) (member : term ∈ expression.terms),
        motive (.term term) (bare.part (term_mem_children member))) ->
      (∀ (formula : Formula) (member : formula ∈ expression.formulas),
        motive (.formula formula) (bare.part (formula_mem_children member))) ->
      motive expression bare)
    (expression : Expression)
    (bare : expression.IsBare) : motive expression bare := by
  induction expression using nodeInduction with
  | plain expression plain inductionHypothesis =>
      exact node expression bare
        (fun _ member => inductionHypothesis _ (term_mem_children member) _)
        fun _ member => inductionHypothesis _ (formula_mem_children member) _
  | transformed expression transform pending =>
      rw [bare.whole] at pending
      cases pending

variable {expression : Expression} {x y : Symbol} {s t : Term}

/-- Substitution for a variable that is not free changes nothing. -/
theorem substitute_of_not_free
    (bare : expression.IsBare)
    (absent : x.text ∉ expression.freeVariables) :
    expression.substitute (.ofVariable x) t = expression := by
  induction expression, bare using bareInduction with
  | node expression bare terms formulas =>
      have plain := bare.whole
      simp only [mem_freeVariables_iff plain, not_or, not_and] at absent
      obtain ⟨other, absentTerms, absentFormulas⟩ := absent
      rw [substitute_eq_mapParts plain other]
      refine mapParts_eq_self plain (fun part member => ?_) fun part member => ?_
      · exact term.inj (terms part member fun free =>
          absentTerms ⟨part, member, free⟩)
      · rw [substituteUnder]
        split
        · rfl
        · next unbound =>
            exact formula.inj (formulas part member fun free =>
              absentFormulas unbound ⟨part, member, free⟩)

/-- In a variable by itself, only this variable is free. -/
theorem freeVariables_of_variable
    {name : String}
    (named : expression.variableName? = some name) :
    expression.freeVariables = {name} := by
  cases expression with
  | formula => cases named
  | term whole =>
      obtain ⟨symbol, rfl, rfl⟩ := Term.exists_of_variableName? named
      rfl

/-- In the formulas of a node that binds a variable of the same name nothing happens,
and the variable is not free there. -/
theorem mem_freeVariables_under_iff
    {binder? : Option String}
    {items : List Formula}
    {name : String}
    (each : (∃ formula ∈ items,
        name ∈ (formula.substitute (.ofVariable x) t).freeVariables) ↔
      (∃ formula ∈ items, name ∈ formula.freeVariables) ∧ name ≠ x.text ∨
        (∃ formula ∈ items, x.text ∈ formula.freeVariables) ∧
          name ∈ t.freeVariables)
    (unbound : name ∈ t.freeVariables -> binder? ≠ some name) :
    (binder? ≠ some name ∧ ∃ formula ∈ items,
        name ∈ (substituteUnder binder? x t formula).freeVariables) ↔
      (binder? ≠ some name ∧ ∃ formula ∈ items, name ∈ formula.freeVariables) ∧
          name ≠ x.text ∨
        (binder? ≠ some x.text ∧ ∃ formula ∈ items,
          x.text ∈ formula.freeVariables) ∧ name ∈ t.freeVariables := by
  by_cases captured : binder? = some x.text
  · by_cases equal : name = x.text
    · simp [equal, captured]
    · simp [substituteUnder, captured, equal]
  · have free : (binder? ≠ some name ∧
          (∃ formula ∈ items, x.text ∈ formula.freeVariables) ∧
            name ∈ t.freeVariables) ↔
        (∃ formula ∈ items, x.text ∈ formula.freeVariables) ∧
          name ∈ t.freeVariables :=
      and_iff_right_of_imp fun ⟨_, free⟩ => unbound free
    have entered : binder? ≠ some x.text := captured
    simp only [substituteUnder, if_neg captured]
    rw [each, and_or_left, free, and_assoc, and_iff_right entered]

/-- A variable is free after a substitution if it was free and is another one, or if it
is put in. -/
theorem mem_freeVariables_substitute_iff
    (bare : expression.IsBare)
    (apart : ∀ name ∈ t.freeVariables, ¬expression.Binds name)
    {name : String} :
    name ∈ (expression.substitute (.ofVariable x) t).freeVariables ↔
      name ∈ expression.freeVariables ∧ name ≠ x.text ∨
        x.text ∈ expression.freeVariables ∧ name ∈ t.freeVariables := by
  induction expression, bare using bareInduction with
  | node expression bare terms formulas =>
      by_cases named : expression.variableName? = some x.text
      · rw [substitute_of_variable named, freeVariables_of_variable named]
        simp [freeVariables]
      have plain := bare.whole
      have onName : expression.variableName? = some name ↔
          expression.variableName? = some name ∧ name ≠ x.text ∨
            expression.variableName? = some x.text ∧ name ∈ t.freeVariables := by
        constructor
        · exact fun isName => .inl ⟨isName, fun equal => named (equal ▸ isName)⟩
        · rintro (⟨isName, -⟩ | ⟨isTarget, -⟩)
          · exact isName
          · exact absurd isTarget named
      have onTerms := exists_mem_iff_or fun part member =>
        terms part member fun name free binds =>
          apart name free (binds.part (term_mem_children member))
      have onFormulas := exists_mem_iff_or fun part member =>
        formulas part member fun name free binds =>
          apart name free (binds.part (formula_mem_children member))
      have onScope := mem_freeVariables_under_iff onFormulas fun free binder =>
        apart name free ⟨expression, .whole, binder⟩
      rw [substitute_eq_mapParts plain named,
        mem_freeVariables_iff transform?_mapParts, mem_freeVariables_iff plain,
        mem_freeVariables_iff plain, variableName?_mapParts plain,
        binder?_mapParts, terms_mapParts, formulas_mapParts]
      simp only [List.mem_map, exists_exists_and_eq_and]
      exact or_iff_or onName (or_iff_or onTerms onScope)

/-- Nothing changes in a term in which the variable is not free. -/
theorem substitute_term_of_not_free
    (bare : (Expression.term s).IsBare)
    (absent : x.text ∉ s.freeVariables) :
    s.substitute (.ofVariable x) t = s :=
  term.inj (substitute_of_not_free bare absent)

/-- Substitutions for two variables can change places, if what is put in for the first
is itself substituted in. -/
theorem substitute_substitute
    (bare : expression.IsBare)
    (bareFirst : (Expression.term s).IsBare)
    (bareSecond : (Expression.term t).IsBare)
    (distinct : x.text ≠ y.text)
    (absent : x.text ∉ t.freeVariables)
    (apart : ∀ name ∈ s.freeVariables, ¬expression.Binds name) :
    (expression.substitute (.ofVariable x) s).substitute (.ofVariable y) t =
      (expression.substitute (.ofVariable y) t).substitute (.ofVariable x)
        (s.substitute (.ofVariable y) t) := by
  induction expression, bare using bareInduction with
  | node expression bare terms formulas =>
      have plain := bare.whole
      by_cases first : expression.variableName? = some x.text
      · have other : y.text ∉ expression.freeVariables := by
          rw [freeVariables_of_variable first, Finset.mem_singleton]
          exact distinct.symm
        rw [substitute_of_not_free bare other, substitute_of_variable first,
          substitute_of_variable first]
        rfl
      by_cases second : expression.variableName? = some y.text
      · have other : x.text ∉ expression.freeVariables := by
          rw [freeVariables_of_variable second, Finset.mem_singleton]
          exact distinct
        rw [substitute_of_not_free bare other, substitute_of_variable second,
          substitute_of_not_free bareSecond absent]
      rw [substitute_eq_mapParts plain first, substitute_eq_mapParts plain second,
        substitute_eq_mapParts transform?_mapParts
          (by rwa [variableName?_mapParts plain]),
        substitute_eq_mapParts transform?_mapParts
          (by rwa [variableName?_mapParts plain]),
        mapParts_mapParts, mapParts_mapParts, binder?_mapParts, binder?_mapParts]
      refine mapParts_congr (fun part member => ?_) fun part member => ?_
      · exact term.inj (terms part member fun name free binds =>
          apart name free (binds.part (term_mem_children member)))
      · have entered := formula.inj (formulas part member fun name free binds =>
          apart name free (binds.part (formula_mem_children member)))
        by_cases capturedFirst : expression.binder? = some x.text
        · simp [substituteUnder, capturedFirst]
        by_cases capturedSecond : expression.binder? = some y.text
        · -- The quantifier binds no variable of what is put in for the first.
          have closed : s.substitute (.ofVariable y) t = s :=
            substitute_term_of_not_free bareFirst fun free =>
              apart y.text free ⟨expression, .whole, capturedSecond⟩
          simp [substituteUnder, capturedSecond, closed]
        · simpa only [substituteUnder, if_neg capturedFirst, if_neg capturedSecond]
            using entered

/-- Substitutions for one variable are one substitution, in which the second is made in
what the first puts in. -/
theorem substitute_substitute_self (bare : expression.IsBare) :
    (expression.substitute (.ofVariable x) s).substitute (.ofVariable x) t =
      expression.substitute (.ofVariable x) (s.substitute (.ofVariable x) t) := by
  induction expression, bare using bareInduction with
  | node expression bare terms formulas =>
      have plain := bare.whole
      by_cases named : expression.variableName? = some x.text
      · rw [substitute_of_variable named, substitute_of_variable named]
        rfl
      rw [substitute_eq_mapParts plain named, substitute_eq_mapParts plain named,
        substitute_eq_mapParts transform?_mapParts
          (by rwa [variableName?_mapParts plain]),
        mapParts_mapParts, binder?_mapParts]
      refine mapParts_congr (fun part member => term.inj (terms part member))
        fun part member => ?_
      simp only [substituteUnder]
      split
      · rfl
      · exact formula.inj (formulas part member)

/-- Only the name of a variable counts. -/
theorem substitute_ofVariable_congr
    (bare : expression.IsBare)
    (names : x.text = y.text) :
    expression.substitute (.ofVariable x) t =
      expression.substitute (.ofVariable y) t := by
  induction expression, bare using bareInduction with
  | node expression bare terms formulas =>
      have plain := bare.whole
      by_cases named : expression.variableName? = some x.text
      · rw [substitute_of_variable named, substitute_of_variable (names ▸ named)]
      rw [substitute_eq_mapParts plain named,
        substitute_eq_mapParts plain (names ▸ named)]
      refine mapParts_congr (fun part member => term.inj (terms part member))
        fun part member => ?_
      rw [substituteUnder, substituteUnder, names]
      split
      · rfl
      · exact formula.inj (formulas part member)

/-- No quantifier binds the variable if none of the nodes does. -/
theorem not_binds_iff {name : String} :
    ¬expression.Binds name ↔
      expression.Everywhere fun node => node.binder? ≠ some name := by
  rw [Binds, not_exists]
  exact forall_congr' fun node => not_and

end Expression

namespace Formula

variable {f : Formula} {s t : Term} {x y : Symbol}

/-- The formula `Fxy ∧ (∃x < x)Gxy`, where the same variable is free in front of the
quantifier and in its bound, and is bound in its scope. -/
def freeAndBound (x y : Symbol) : Formula :=
  let relation (text : String) : Formula :=
    .plain (.relation ⟨text, .relation⟩ [.ofVariable x, .ofVariable y])
  .plain (.binary ⟨"∧", .connective⟩ .conjunction (relation "F")
    (.plain (.quantified ⟨"∃", .quantifier⟩ .existential (.ofVariable x)
      (.bounded ⟨"<", .infixRelation⟩ (.ofVariable x) .round) (relation "G"))) none)

theorem isBare_freeAndBound : (Expression.formula (freeAndBound x y)).IsBare := by
  simp [freeAndBound, Expression.IsBare, Expression.Everywhere.iff_forall,
    Expression.children, FormulaShape.children, FormulaShape.restrictionChildren,
    TermShape.children, Expression.transform?, Formula.transform?, Formula.shape,
    Term.transform?, Term.shape, Term.ofVariable, Term.leaf]

theorem not_binds_freeAndBound (distinct : x.text ≠ y.text) :
    ¬(Expression.formula (freeAndBound x y)).Binds y.text := by
  simp [Expression.not_binds_iff, freeAndBound, Expression.Everywhere.iff_forall,
    Expression.children, FormulaShape.children, FormulaShape.restrictionChildren,
    TermShape.children, Expression.binder?, FormulaShape.binder?, Formula.shape,
    Term.shape, Term.ofVariable, Term.leaf, Term.variableName?, distinct]

/-- Substitutions for two different variables can change places, the second being made
in what the first puts in as well. -/
theorem substitutions_exchange
    (bare : (Expression.formula f).IsBare)
    (bareFirst : (Expression.term s).IsBare)
    (bareSecond : (Expression.term t).IsBare)
    (distinct : x.text ≠ y.text)
    (absent : x.text ∉ t.freeVariables)
    (apart : ∀ name ∈ s.freeVariables, ¬(Expression.formula f).Binds name) :
    (f.substitute (.ofVariable x) s).substitute (.ofVariable y) t =
      (f.substitute (.ofVariable y) t).substitute (.ofVariable x)
        (s.substitute (.ofVariable y) t) :=
  Expression.formula.inj
    (Expression.substitute_substitute bare bareFirst bareSecond distinct absent apart)

/-- Putting in `g(y)` for `x` and then `a` for `y`. -/
theorem substitutions_exchange_application :
    let x : Symbol := ⟨"x", .objectVariable⟩
    let y : Symbol := ⟨"y", .objectVariable⟩
    let s : Term := .plain (.apply .function ⟨"g", .function⟩ [.ofVariable y] .round)
    let t : Term := .leaf .constant ⟨"a", .constant⟩
    let f := freeAndBound x y
    ((Expression.formula f).IsBare ∧ (Expression.term s).IsBare ∧
        (Expression.term t).IsBare) ∧
      (x.text ≠ y.text ∧ x.text ∉ t.freeVariables ∧
        ∀ name ∈ s.freeVariables, ¬(Expression.formula f).Binds name) ∧
      ((f.substitute (.ofVariable x) s).substitute (.ofVariable y) t).text =
        "Fg(a)a ∧ (∃x < g(a))Gxa" ∧
      (f.substitute (.ofVariable x) s).substitute (.ofVariable y) t =
        (f.substitute (.ofVariable y) t).substitute (.ofVariable x)
          (s.substitute (.ofVariable y) t) := by
  intro x y s t f
  have bareSecond : (Expression.term t).IsBare := .of_parts rfl nofun
  have bareFirst : (Expression.term s).IsBare :=
    .of_parts rfl (List.forall_mem_singleton.mpr (.of_parts rfl nofun))
  have distinct : x.text ≠ y.text := by decide
  have absent : x.text ∉ t.freeVariables := by decide
  have apart : ∀ name ∈ s.freeVariables, ¬(Expression.formula f).Binds name := by
    intro name free
    obtain rfl : name = y.text := by
      simpa [s, Term.freeVariables, TermShape.freeVariables, Term.freeVariablesAmong,
        Term.ofVariable, Term.leaf] using free
    exact not_binds_freeAndBound distinct
  exact ⟨⟨isBare_freeAndBound, bareFirst, bareSecond⟩, ⟨distinct, absent, apart⟩,
    by rfl, substitutions_exchange isBare_freeAndBound bareFirst bareSecond
      distinct absent apart⟩

/-- A variable that is not free is not replaced. If it is free, the variables of what is
put in take its place among the free variables. -/
theorem substitute_replaces_free
    (bare : (Expression.formula f).IsBare)
    (apart : ∀ name ∈ t.freeVariables, ¬(Expression.formula f).Binds name) :
    (x.text ∉ f.freeVariables -> f.substitute (.ofVariable x) t = f) ∧
      (x.text ∈ f.freeVariables ->
        (f.substitute (.ofVariable x) t).freeVariables =
          f.freeVariables.erase x.text ∪ t.freeVariables) := by
  constructor
  · exact fun absent =>
      Expression.formula.inj (Expression.substitute_of_not_free bare absent)
  · intro free
    have isFree : x.text ∈ (Expression.formula f).freeVariables := free
    ext name
    rw [Finset.mem_union, Finset.mem_erase, and_comm]
    refine (Expression.mem_freeVariables_substitute_iff bare apart).trans ?_
    rw [and_iff_right isFree]
    rfl

/-- Putting in `y` for `x`, which is free and also bound. -/
theorem substitute_replaces_free_and_bound :
    let x : Symbol := ⟨"x", .objectVariable⟩
    let y : Symbol := ⟨"y", .objectVariable⟩
    let f := freeAndBound x y
    ((Expression.formula f).IsBare ∧ (∀ name ∈ (Term.ofVariable y).freeVariables,
        ¬(Expression.formula f).Binds name) ∧ x.text ∈ f.freeVariables) ∧
      (f.substitute (.ofVariable x) (.ofVariable y)).text = "Fyy ∧ (∃x < y)Gxy" ∧
      (f.substitute (.ofVariable x) (.ofVariable y)).freeVariables = {y.text} := by
  intro x y f
  have apart : ∀ name ∈ (Term.ofVariable y).freeVariables,
      ¬(Expression.formula f).Binds name :=
    fun name free => Finset.mem_singleton.mp free ▸ not_binds_freeAndBound (by decide)
  have free : x.text ∈ f.freeVariables := by decide
  have replaced := (substitute_replaces_free isBare_freeAndBound apart).2 free
  exact ⟨⟨isBare_freeAndBound, apart, free⟩, by rfl, replaced.trans (by decide)⟩

end Formula
end SymbolicLogic
