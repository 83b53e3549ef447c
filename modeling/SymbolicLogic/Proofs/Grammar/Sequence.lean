import SymbolicLogic.Proofs.Grammar.RuleLaws

/-!
# Sequences of phrases

A list of values is written by writing its members one after the other, either
with nothing between them or with commas. Repetition reads the first kind of
list, separation the second one, as long as each member is read back from its
own tokens whatever stands behind it.
-/

namespace SymbolicLogic
namespace Grammar

/-- Phrases for the values of a list, one directly after the other. -/
inductive Juxtaposed (phrase : List Token -> α -> Prop) :
    List Token -> List α -> Prop
  | nil : Juxtaposed phrase [] []
  | cons (first : phrase tokens value) (others : Juxtaposed phrase rest values) :
      Juxtaposed phrase (tokens ++ rest) (value :: values)

/-- Phrases for the values of a list, at least one, with commas between them. -/
inductive Separated (phrase : List Token -> α -> Prop) :
    List Token -> List α -> Prop
  | single (only : phrase tokens value) : Separated phrase tokens [value]
  | cons (first : phrase tokens value) (others : Separated phrase rest values) :
      Separated phrase (tokens ++ .comma :: rest) (value :: values)

/-- A phrase, and more phrases with a comma before each of them. -/
theorem Separated.of_juxtaposed
    {phrase : List Token -> α -> Prop}
    (first : phrase tokens value)
    (others : Juxtaposed
      (fun used value => ∃ inner, used = .comma :: inner ∧ phrase inner value)
      rest values) :
    Separated phrase (tokens ++ rest) (value :: values) := by
  induction others generalizing tokens value with
  | nil => simpa using Separated.single first
  | cons next _ inductionHypothesis =>
      obtain ⟨inner, rfl, second⟩ := next
      exact .cons first (inductionHypothesis second)

theorem Juxtaposed.imp
    {phrase other : List Token -> α -> Prop}
    (implies : ∀ used value, phrase used value -> other used value)
    (phrases : Juxtaposed phrase tokens values) :
    Juxtaposed other tokens values := by
  induction phrases with
  | nil => exact .nil
  | cons first _ inductionHypothesis =>
      exact .cons (implies _ _ first) inductionHypothesis

theorem Separated.imp
    {phrase other : List Token -> α -> Prop}
    (implies : ∀ used value, phrase used value -> other used value)
    (phrases : Separated phrase tokens values) :
    Separated other tokens values := by
  induction phrases with
  | single only => exact .single (implies _ _ only)
  | cons first _ inductionHypothesis =>
      exact .cons (implies _ _ first) inductionHypothesis

end Grammar

namespace Rule

open Grammar

variable {α : Type} {rule : Rule α} {tokens rest : List Token}
variable {phrase : List Token -> α -> Prop}

/-- A limit that the tokens do not reach makes no difference. -/
theorem upTo_eq_upTo
    (consumes : rule.Consumes)
    {first second : Nat}
    (withinFirst : tokens.length ≤ first)
    (withinSecond : tokens.length ≤ second) :
    rule.upTo first tokens = rule.upTo second tokens := by
  induction first generalizing second tokens with
  | zero =>
      obtain rfl : tokens = [] := List.length_eq_zero_iff.mp (by omega)
      cases second with
      | zero => rfl
      | succ second =>
          rw [upTo, upTo, orElse_of_eq_none
            (bind_of_eq_none consumes.eq_none_of_nil)]
  | succ first inductionHypothesis =>
      cases second with
      | zero =>
          obtain rfl : tokens = [] := List.length_eq_zero_iff.mp (by omega)
          rw [upTo, upTo, orElse_of_eq_none
            (bind_of_eq_none consumes.eq_none_of_nil)]
      | succ second =>
          cases found : rule tokens with
          | none =>
              rw [upTo, upTo, orElse_of_eq_none (bind_of_eq_none found),
                orElse_of_eq_none (bind_of_eq_none found)]
          | some result =>
              have shorter := consumes found
              have same : rule.upTo first result.2 =
                  rule.upTo second result.2 :=
                inductionHypothesis (by omega) (by omega)
              rw [upTo, upTo, orElse_apply, orElse_apply,
                bind_of_eq_some found, bind_of_eq_some found, bind_apply,
                bind_apply, same]

/-- Where an item cannot be read the list ends. -/
theorem many_of_eq_none (missing : rule tokens = none) :
    rule.many tokens = some ([], tokens) := by
  change rule.upTo tokens.length tokens = _
  cases tokens.length with
  | zero => rfl
  | succ limit =>
      rw [upTo, orElse_of_eq_none (bind_of_eq_none missing)]
      rfl

theorem many_of_eq_some
    {value : α}
    {values : List α}
    {last : List Token}
    (consumes : rule.Consumes)
    (found : rule tokens = some (value, rest))
    (others : rule.many rest = some (values, last)) :
    rule.many tokens = some (value :: values, last) := by
  have shorter := consumes found
  obtain ⟨limit, length_eq⟩ : ∃ limit, tokens.length = limit + 1 :=
    ⟨tokens.length - 1, by omega⟩
  have rest_eq : rule.upTo limit rest = some (values, last) :=
    (upTo_eq_upTo consumes (by omega) (Nat.le_refl _)).trans others
  change rule.upTo tokens.length tokens = _
  rw [length_eq, upTo, orElse_apply, bind_of_eq_some found,
    bind_of_eq_some rest_eq]
  rfl

/-- Repetition reads phrases that stand next to each other. -/
theorem Reads.upTo (reads : rule.Reads phrase) (limit : Nat) :
    (rule.upTo limit).Reads (Juxtaposed phrase) := by
  induction limit with
  | zero =>
      intro tokens values rest found
      obtain ⟨rfl, rfl⟩ := pure_eq_some found
      exact ⟨[], rfl, .nil⟩
  | succ limit inductionHypothesis =>
      intro tokens values rest found
      rcases orElse_eq_some found with found | ⟨-, found⟩
      · obtain ⟨value, middle, first, found⟩ := bind_eq_some found
        obtain ⟨others, after, more, found⟩ := bind_eq_some found
        obtain ⟨rfl, rfl⟩ := pure_eq_some found
        obtain ⟨used, rfl, meant⟩ := reads first
        obtain ⟨usedMore, rfl, meantMore⟩ := inductionHypothesis more
        exact ⟨used ++ usedMore, (List.append_assoc ..).symm,
          .cons meant meantMore⟩
      · obtain ⟨rfl, rfl⟩ := pure_eq_some found
        exact ⟨[], rfl, .nil⟩

/-- Repetition gives back the values of phrases that stand next to each other,
if each is read back wherever `follow` holds and nothing more can be read. -/
theorem many_append
    (consumes : rule.Consumes)
    {follow : List Token -> Prop}
    {values : List α}
    (phrases : Juxtaposed
      (fun used value => (∀ after, follow (used ++ after)) ∧
        ∀ after, follow after -> rule (used ++ after) = some (value, after))
      tokens values)
    (follows : follow rest)
    (stops : rule rest = none) :
    rule.many (tokens ++ rest) = some (values, rest) := by
  induction phrases with
  | nil => exact many_of_eq_none stops
  | @cons used value others values first phrases inductionHypothesis =>
      rw [List.append_assoc]
      have followsFirst : follow (others ++ rest) := by
        cases phrases with
        | nil => exact follows
        | cons second more =>
            rw [List.append_assoc]
            exact second.1 _
      exact many_of_eq_some consumes (first.2 _ followsFirst)
        inductionHypothesis

/-- A repeated rule reads phrases side by side. -/
theorem Reads.many (reads : rule.Reads phrase) :
    rule.many.Reads (Juxtaposed phrase) :=
  fun _ _ _ found => reads.upTo _ found

/-- Separation reads phrases with commas between them. -/
theorem Reads.separatedBy (reads : rule.Reads phrase) :
    (rule.separatedBy (.exactly .comma)).Reads (Separated phrase) := by
  have readsNext : (do Rule.exactly .comma; rule : Rule α).Reads
      fun used value => ∃ inner, used = .comma :: inner ∧ phrase inner value := by
    intro tokens value rest found
    obtain ⟨_, middle, comma, found⟩ := bind_eq_some found
    obtain ⟨used, rfl, meant⟩ := reads found
    exact ⟨.comma :: used, exactly_eq_some comma, used, rfl, meant⟩
  intro tokens values rest found
  obtain ⟨value, middle, first, found⟩ := bind_eq_some found
  obtain ⟨others, after, more, found⟩ := bind_eq_some found
  obtain ⟨rfl, rfl⟩ := pure_eq_some found
  obtain ⟨used, rfl, meant⟩ := reads first
  obtain ⟨usedMore, rfl, meantMore⟩ := readsNext.many more
  exact ⟨used ++ usedMore, (List.append_assoc ..).symm,
    .of_juxtaposed meant meantMore⟩

theorem separatedBy_of_single
    {value : α}
    (found : rule tokens = some (value, rest))
    (noComma : Rule.exactly .comma rest = none) :
    rule.separatedBy (.exactly .comma) tokens = some ([value], rest) := by
  rw [Rule.separatedBy, bind_of_eq_some found,
    bind_of_eq_some (many_of_eq_none (bind_of_eq_none noComma))]
  rfl

theorem separatedBy_of_cons
    {value : α}
    {values : List α}
    {last : List Token}
    (consumes : rule.Consumes)
    (found : rule tokens = some (value, .comma :: rest))
    (others : rule.separatedBy (.exactly .comma) rest = some (values, last)) :
    rule.separatedBy (.exactly .comma) tokens =
      some (value :: values, last) := by
  have consumesNext : (do Rule.exactly .comma; rule : Rule α).Consumes := by
    intro tokens value rest found
    obtain ⟨_, middle, comma, found⟩ := bind_eq_some found
    have shorter := consumes found
    rw [exactly_eq_some comma]
    exact Nat.lt_succ_of_lt shorter
  obtain ⟨second, after, second_eq, others⟩ := bind_eq_some others
  obtain ⟨more, last', more_eq, others⟩ := bind_eq_some others
  obtain ⟨rfl, rfl⟩ := pure_eq_some others
  have next : (do Rule.exactly .comma; rule : Rule α) (.comma :: rest) =
      some (second, after) :=
    (bind_of_eq_some (exactly_of_eq ..)).trans second_eq
  rw [Rule.separatedBy, bind_of_eq_some found,
    bind_of_eq_some (many_of_eq_some consumesNext next more_eq)]
  rfl

/-- Separation gives back the values of phrases with commas between them, if
each is read back wherever `follow` holds, and no comma comes after. -/
theorem separatedBy_append
    (consumes : rule.Consumes)
    {follow : List Token -> Prop}
    (beforeComma : ∀ after, follow (.comma :: after))
    {values : List α}
    (phrases : Separated
      (fun used value =>
        ∀ after, follow after -> rule (used ++ after) = some (value, after))
      tokens values)
    (follows : follow rest)
    (noComma : Rule.exactly .comma rest = none) :
    rule.separatedBy (.exactly .comma) (tokens ++ rest) =
      some (values, rest) := by
  induction phrases with
  | single only => exact separatedBy_of_single (only rest follows) noComma
  | cons first _ inductionHypothesis =>
      rw [List.append_assoc, List.cons_append]
      exact separatedBy_of_cons consumes (first _ (beforeComma _))
        inductionHypothesis

end Rule
end SymbolicLogic
