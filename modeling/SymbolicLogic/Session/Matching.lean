import SymbolicLogic.Rendering.Report
import SymbolicLogic.Session.Instantiation

/-!
# Matching

Matching walks a pattern against a concrete expression and binds the
metavariables of the pattern. A metavariable is bound once: binding it again to
the same expression changes nothing, and to another one is a conflict. When
matching fails, the bindings made so far stay.

A pattern with a pending substitution matches a concrete expression with one
part by part. Against a concrete expression without one, both are resolved and
compared as wholes.
-/

namespace SymbolicLogic

/-- Why a pattern does not match, or a metavariable cannot be bound. -/
inductive MatchError
  | variableConflict (metavariable existing attempted : Expression)
  | unresolvedDependency (pattern : Expression) (dependency : Symbol)
  | shapeMismatch (pattern concrete : Expression)
  | kindMismatch (symbol : Symbol) (family : MetaFamily) (found : Expression)

namespace MatchError

def message : MatchError -> String
  | .variableConflict metavariable existing attempted =>
      "`" ++ metavariable.text ++ "` is already matched to `" ++
        existing.text ++ "` and cannot also match `" ++ attempted.text ++ "`"
  | .unresolvedDependency pattern dependency =>
      "`" ++ pattern.text ++ "` cannot be matched before `" ++
        dependency.text ++ "` is resolved"
  | .shapeMismatch pattern concrete =>
      "`" ++ concrete.text ++ "` does not have the shape of `" ++
        pattern.text ++ "`"
  | .kindMismatch symbol family found =>
      "`" ++ symbol.text ++ "` ranges over " ++ family.name ++
        " expressions and cannot match `" ++ found.text ++ "`"

/-- The body of the report on a failure. -/
def fragments : MatchError -> List TextRun
  | .variableConflict metavariable existing attempted =>
      metavariable.runs ++ Report.words " is already " ++ existing.runs ++
        Report.words " and cannot also be " ++ attempted.runs
  | .unresolvedDependency pattern dependency =>
      pattern.runs ++ Report.words " cannot be matched before " ++
        Report.quoted dependency.text ++ Report.words " is known"
  | .shapeMismatch pattern concrete =>
      concrete.runs ++ Report.words " does not have the form " ++ pattern.runs
  | .kindMismatch symbol family found =>
      Report.quoted symbol.text ++
        Report.words (" stands for a " ++ family.name ++ ", not for ") ++
        found.runs

end MatchError

instance : Reportable MatchError where
  message := MatchError.message
  report error :=
    { title := "Does not match"
      fragments := error.fragments }

namespace Session

/-- The key of a metavariable once its parameters are known. -/
def resolvedKey
    (session : Session)
    (metavariable : Metavariable) : Except MatchError Metavariable :=
  match Term.unboundAmong? metavariable.params session with
  | some dependency =>
      .error (.unresolvedDependency metavariable.toExpression dependency)
  | none =>
      .ok (session.key metavariable.family metavariable.symbol
        metavariable.params)

/-- The value of a metavariable; there is none while its parameters are not
known. -/
def get? (session : Session) (metavariable : Metavariable) : Option Expression :=
  match session.resolvedKey metavariable with
  | .ok key => session.value? key
  | .error _ => none

/-- Enter a metavariable, once its parameters are known. -/
def enter (session : Session) (metavariable : Metavariable) : Session :=
  match session.resolvedKey metavariable with
  | .ok key => session.register key
  | .error _ => session

end Session

/-- A run that changes a session and may fail; changes before a failure
stay. -/
abbrev Matching := ExceptT MatchError (StateM Session)

namespace Matching

/-- Run from a session, to the outcome and the session afterwards. -/
def runFrom (matching : Matching Unit) (session : Session) :
    Except MatchError Unit × Session :=
  StateT.run matching.run session

/-- Report a mismatch met on the way as a mismatch of larger expressions. -/
def widening
    (matching : Matching Unit)
    (pattern concrete : Expression) : Matching Unit :=
  tryCatch matching fun
    | .shapeMismatch .. => throw (.shapeMismatch pattern concrete)
    | error => throw error

end Matching

/-- Bind a metavariable to a value its family accepts. -/
def Metavariable.bind
    (metavariable : Metavariable)
    (value : Expression) : Matching Unit := do
  unless metavariable.family.accepts value do
    throw (.kindMismatch metavariable.symbol metavariable.family value)
  let session <- get
  let key <- session.resolvedKey metavariable
  match session.value? key with
  | some existing =>
      unless existing.same value do
        throw
          (.variableConflict metavariable.toExpression existing value)
  | none => set ((session.register key).assign key value)

/-- Enter a metavariable met in a pattern and bind it. -/
def Metavariable.meet
    (metavariable : Metavariable)
    (concrete : Expression) : Matching Unit := do
  modify fun session => session.enter metavariable
  metavariable.bind concrete

mutual

/-- Match a term of a pattern against a concrete one. -/
def Term.matchAgainst (pattern concrete : Term) : Matching Unit :=
  match pattern with
  | .plain shape => shape.matchAgainst concrete
  | .transformed shape target replacement stacked =>
      match concrete with
      | .transformed shape' target' replacement' _ => do
          shape.matchAgainst (.plain shape')
          target.matchAgainst target'
          replacement.matchAgainst replacement'
      | .plain shape' => do
          let session <- get
          let pattern := Term.transformed shape target replacement stacked
          if let some dependency := pattern.unbound? session then
            throw (.unresolvedDependency (.term pattern) dependency)
          let concrete := (Term.plain shape').carryOut
          unless (session.resolveTerm pattern).same concrete do
            throw (.shapeMismatch (.term pattern) (.term concrete))
termination_by structural pattern

/-- Match a pattern without a pending substitution. -/
def TermShape.matchAgainst
    (pattern : TermShape)
    (concrete : Term) : Matching Unit :=
  let mismatch : Matching Unit :=
    throw (.shapeMismatch (.term (.plain pattern)) (.term concrete))
  match pattern with
  | .leaf kind symbol =>
      match kind.family? with
      | some family => Metavariable.meet ⟨family, symbol, []⟩ (.term concrete)
      | none =>
          match concrete with
          | .plain (.leaf kind' symbol') =>
              if kind = kind' && symbol.same symbol' then pure () else mismatch
          | _ => mismatch
  | .apply .complexMeta symbol params _ => do
      if let .plain (.apply .complexMeta symbol' args _) := concrete then
        if symbol'.same symbol && args.length = params.length then
          Term.matchAll params args
      Metavariable.meet ⟨.complexTerm, symbol, params⟩ (.term concrete)
  | .apply .function symbol args _ =>
      match concrete with
      | .plain (.apply .function symbol' args' _) =>
          if symbol.same symbol' && args.length = args'.length then
            Term.matchAll args args'
          else mismatch
      | _ => mismatch
  | .operation symbol left right _ =>
      match concrete with
      | .plain (.operation symbol' left' right' _) =>
          if symbol.same symbol' then do
            left.matchAgainst left'
            right.matchAgainst right'
          else mismatch
      | _ => mismatch
termination_by structural pattern

/-- Match terms in order, as far as both lists go. -/
def Term.matchAll (patterns concretes : List Term) : Matching Unit :=
  match patterns, concretes with
  | pattern :: patterns, concrete :: concretes => do
      pattern.matchAgainst concrete
      Term.matchAll patterns concretes
  | _, _ => pure ()
termination_by structural patterns

end

/-- Match the two parts of a pending substitution. -/
def Transform.matchAgainst (pattern concrete : Transform) : Matching Unit := do
  pattern.target.matchAgainst concrete.target
  pattern.replacement.matchAgainst concrete.replacement

mutual

/-- Match a formula of a pattern against a concrete one. -/
def Formula.matchAgainst (pattern concrete : Formula) : Matching Unit :=
  match pattern with
  | .plain shape => shape.matchAgainst concrete
  | .transformed shape transform =>
      match concrete with
      | .transformed shape' transform' => do
          shape.matchAgainst (.plain shape')
          transform.matchAgainst transform'
      | .plain shape' => do
          let session <- get
          let pattern := Formula.transformed shape transform
          if let some dependency := pattern.unbound? session then
            throw (.unresolvedDependency (.formula pattern) dependency)
          let concrete := (Formula.plain shape').carryOut
          unless (session.resolveFormula pattern).same concrete do
            throw (.shapeMismatch (.formula pattern) (.formula concrete))
termination_by structural pattern

/-- Match a pattern without a pending substitution. -/
def FormulaShape.matchAgainst
    (pattern : FormulaShape)
    (concrete : Formula) : Matching Unit :=
  let mismatch : Matching Unit :=
    throw (.shapeMismatch (.formula (.plain pattern)) (.formula concrete))
  match pattern with
  | .leaf kind symbol =>
      match kind.family? with
      | some family =>
          Metavariable.meet ⟨family, symbol, []⟩ (.formula concrete)
      | none =>
          match concrete with
          | .plain (.leaf kind' symbol') =>
              if kind = kind' && symbol.same symbol' then pure () else mismatch
          | _ => mismatch
  | .complexMeta symbol params _ => do
      if let .plain (.complexMeta symbol' args _) := concrete then
        if symbol'.same symbol && args.length = params.length then
          Term.matchAll params args
      Metavariable.meet ⟨.complexFormula, symbol, params⟩ (.formula concrete)
  | .relation symbol args =>
      match concrete with
      | .plain (.relation symbol' args') =>
          if symbol.same symbol' && args.length = args'.length then
            Term.matchAll args args'
          else mismatch
      | _ => mismatch
  | .comparison symbol left right _ =>
      match concrete with
      | .plain (.comparison symbol' left' right' _) =>
          if symbol.same symbol' then do
            left.matchAgainst left'
            right.matchAgainst right'
          else mismatch
      | _ => mismatch
  | .negation symbol operand =>
      match concrete with
      | .plain (.negation symbol' operand') =>
          if symbol.same symbol' then operand.matchAgainst operand'
          else mismatch
      | _ => mismatch
  | .binary symbol connective left right _ =>
      match concrete with
      | .plain (.binary symbol' connective' left' right' _) =>
          if symbol.same symbol' && connective = connective' then do
            left.matchAgainst left'
            right.matchAgainst right'
          else mismatch
      | _ => mismatch
  | .quantified symbol quantifier boundVariable restriction scope =>
      match concrete with
      | .plain (.quantified symbol' quantifier' boundVariable' restriction' scope') => do
          if symbol.same symbol' && quantifier = quantifier' then
            Matching.widening
              (do
                boundVariable.matchAgainst boundVariable'
                restriction.matchAgainst restriction' mismatch)
              (.formula (.plain pattern)) (.formula concrete)
          else mismatch
          scope.matchAgainst scope'
      | _ => mismatch
termination_by structural pattern

/-- Match what restricts a quantifier; `mismatch` tells that the restrictions
are of different forms. -/
def Restriction.matchAgainst
    (pattern concrete : Restriction)
    (mismatch : Matching Unit) : Matching Unit :=
  match pattern, concrete with
  | .unrestricted, .unrestricted => pure ()
  | .bounded relation bound _, .bounded relation' bound' _ =>
      if relation.same relation' then bound.matchAgainst bound' else mismatch
  | .restricted divider formula _, .restricted divider' formula' _ =>
      if divider.same divider' then formula.matchAgainst formula'
      else mismatch
  | _, _ => mismatch
termination_by structural pattern

end

/-- Match expressions. Across sorts, only an any-expression metavariable
matches. -/
def Expression.matchAgainst
    (pattern concrete : Expression) : Matching Unit :=
  match pattern, concrete with
  | .formula p, .formula c => p.matchAgainst c
  | .term p, .term c => p.matchAgainst c
  | .formula p, .term _ =>
      match p.shape with
      | .leaf .anyMeta symbol =>
          Metavariable.meet ⟨.anyExpression, symbol, []⟩ concrete
      | _ => throw (.shapeMismatch pattern concrete)
  | .term p, .formula _ =>
      match p.shape with
      | .leaf .anyMeta symbol =>
          Metavariable.meet ⟨.anyExpression, symbol, []⟩ concrete
      | _ => throw (.shapeMismatch pattern concrete)

end SymbolicLogic
