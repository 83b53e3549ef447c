import SymbolicLogic.Proofs.Expression.Congruence
import SymbolicLogic.Session.Matching

/-!
# The store of a session

Keys that are the same have the same binding. Entering a key changes no value,
and giving a value to a key changes the values of that key only. A session grows
when keys are entered and when keys of known parameters and without a value get one
that their family accepts: values then stay as they are, and every value is accepted
by the family of its key.
-/

namespace SymbolicLogic

namespace MetaFamily

/-- Expressions that are the same are accepted by the same families. -/
theorem accepts_eq_of_same
    (family : MetaFamily)
    {left right : Expression}
    (same : left.same right = true) : family.accepts left = family.accepts right := by
  cases left with
  | formula f =>
      cases right with
      | formula => cases family <;> rfl
      | term => cases same
  | term t =>
      cases right with
      | formula => cases same
      | term t' =>
          cases family with
          | objectVariable =>
              rw [accepts, accepts, ← Term.isVariable_standard t,
                (Term.same_iff t t').mp same, Term.isVariable_standard]
          | _ => rfl

/-- The values of a metavariable for variables are variables. -/
theorem exists_of_accepts_objectVariable
    {value : Expression}
    (accepted : MetaFamily.objectVariable.accepts value = true) :
    ∃ symbol, value = .term (.leaf .objectVariable symbol) := by
  cases value with
  | formula => cases accepted
  | term t =>
      rw [accepts, Term.isVariable.eq_def] at accepted
      split at accepted
      · exact ⟨_, rfl⟩
      · cases accepted

end MetaFamily

namespace Metavariable

/-- Keys are the same if their families, texts and standard parameters are equal. -/
theorem same_iff (left right : Metavariable) :
    left.same right = true ↔
      left.family = right.family ∧
        left.symbol.standard = right.symbol.standard ∧
        Term.standardAll left.params = Term.standardAll right.params := by
  simp [same, Symbol.same_iff_standard, -Symbol.same_iff, Term.sameAll_iff,
    and_assoc]

@[simp] theorem same_refl (key : Metavariable) : key.same key = true :=
  (same_iff key key).mpr ⟨rfl, rfl, rfl⟩

theorem same_comm (left right : Metavariable) :
    left.same right = right.same left := by
  rw [Bool.eq_iff_iff, same_iff, same_iff]
  exact ⟨fun ⟨family, symbol, params⟩ => ⟨family.symm, symbol.symm, params.symm⟩,
    fun ⟨family, symbol, params⟩ => ⟨family.symm, symbol.symm, params.symm⟩⟩

/-- Keys that are the same are the same as the same keys. -/
theorem same_congr
    {left right : Metavariable}
    (same : left.same right = true)
    (key : Metavariable) : key.same left = key.same right := by
  rw [same_iff] at same
  obtain ⟨family, symbol, params⟩ := same
  rw [Bool.eq_iff_iff, same_iff, same_iff, family, symbol, params]

end Metavariable

namespace Session

variable {session before after : Session} {key key' : Metavariable}
  {value : Expression}

/-- Keys that are the same find the same entry. -/
theorem find?_congr
    (session : Session)
    (same : key.same key' = true) : session.find? key = session.find? key' := by
  rw [find?, find?]
  congr 1
  funext binding
  exact Metavariable.same_congr same binding.key

/-- Keys that are the same have the same value. -/
theorem value?_congr
    (session : Session)
    (same : key.same key' = true) :
    session.value? key = session.value? key' := by
  rw [value?, value?, session.find?_congr same]

/-- An entry that is found has the key that was looked for. -/
theorem same_of_find?
    {binding : Binding}
    (found : session.find? key = some binding) :
    binding.key.same key = true := by
  have matched := List.find?_some found
  exact matched

/-- A value comes from an entry of the session. -/
theorem exists_binding_of_value?
    (bound : session.value? key = some value) :
    ∃ binding ∈ session.bindings,
      binding.key.same key = true ∧ binding.value = some value := by
  obtain ⟨binding, found, valueEq⟩ := Option.bind_eq_some_iff.mp bound
  exact ⟨binding, List.mem_of_find?_eq_some found, same_of_find? found, valueEq⟩

/-- No value holds a metavariable. -/
def IsGround (session : Session) : Prop :=
  ∀ key value, session.value? key = some value -> value.isSchematic = false

/-- Registering a key adds an entry without a value, unless there is one. -/
theorem find?_register (session : Session) (key key' : Metavariable) :
    (session.register key).find? key' =
      (session.find? key').or
        (if key.same key' then some ⟨key, none⟩ else none) := by
  rw [register]
  split
  · next there =>
      cases same : key.same key' with
      | false => simp
      | true =>
          rw [session.find?_congr same] at there
          obtain ⟨binding, found⟩ := Option.isSome_iff_exists.mp there
          rw [found]
          rfl
  · rw [find?, List.find?_append, List.find?_singleton, find?]

/-- Entering a key changes no value. -/
@[simp] theorem value?_register (session : Session) (key key' : Metavariable) :
    (session.register key).value? key' = session.value? key' := by
  rw [value?, find?_register, value?]
  cases session.find? key' with
  | some binding => rfl
  | none => cases key.same key' <;> rfl

/-- Assigning a value changes the entries of its key only. -/
theorem find?_assign
    (session : Session)
    (key : Metavariable)
    (value : Expression)
    (key' : Metavariable) :
    (session.assign key value).find? key' =
      (session.find? key').map fun binding =>
        if binding.key.same key then { binding with value := some value }
        else binding := by
  rw [assign, find?, List.find?_map, find?]
  congr 2
  funext binding
  rw [Function.comp_apply]
  split <;> rfl

/-- A value that is given to a key concerns no other key. -/
theorem find?_bound_of_other
    (session : Session)
    (value : Expression)
    (other : key.same key' = false) :
    ((session.register key).assign key value).find? key' =
      session.find? key' := by
  rw [find?_assign, find?_register, other]
  cases found : session.find? key' with
  | none => rfl
  | some binding =>
      have here : binding.key.same key' = true := same_of_find? found
      rw [← Metavariable.same_congr here key, Metavariable.same_comm] at other
      simp [other]

/-- A key that was given a value has it, and so have the keys that are the
same. -/
theorem value?_bound
    (session : Session)
    (value : Expression)
    (same : key.same key' = true) :
    ((session.register key).assign key value).value? key' = some value := by
  rw [value?, find?_assign, find?_register, same]
  cases found : session.find? key' with
  | none => simp
  | some binding =>
      have here : binding.key.same key' = true := same_of_find? found
      rw [← Metavariable.same_congr same binding.key] at here
      simp [here]

/-- Binding one key leaves the values of the others as they are. -/
theorem value?_bound_of_other
    (session : Session)
    (value : Expression)
    (other : key.same key' = false) :
    ((session.register key).assign key value).value? key' =
      session.value? key' := by
  rw [value?, session.find?_bound_of_other value other, value?]

/-- Every key that has a value is related to it. -/
def EachValue
    (holds : Metavariable -> Expression -> Prop)
    (session : Session) : Prop :=
  ∀ binding ∈ session.bindings, ∀ value, binding.value = some value ->
    holds binding.key value

namespace EachValue

variable {holds : Metavariable -> Expression -> Prop}

theorem empty : Session.empty.EachValue holds :=
  nofun

theorem register
    (each : session.EachValue holds)
    (key : Metavariable) : (session.register key).EachValue holds := by
  rw [Session.register]
  split
  · exact each
  · exact List.forall_mem_append.mpr
      ⟨each, List.forall_mem_singleton.mpr nofun⟩

/-- The value that is given is related to each of the keys that are the same. -/
theorem assign
    (each : session.EachValue holds)
    (given : ∀ other, other.same key = true -> holds other value) :
    (session.assign key value).EachValue holds := by
  refine List.forall_mem_map.mpr fun binding member value' bound => ?_
  split at bound
  · next same =>
      cases bound
      rw [if_pos same]
      exact given binding.key same
  · next other =>
      rw [if_neg other]
      exact each binding member value' bound

/-- A value has the property that each value has, with a key that is the same. -/
theorem of_value?
    (each : session.EachValue holds)
    (bound : session.value? key = some value) :
    ∃ other, other.same key = true ∧ holds other value := by
  obtain ⟨binding, member, same, valueEq⟩ := exists_binding_of_value? bound
  exact ⟨binding.key, same, each binding member value valueEq⟩

end EachValue

/-- Every value of the first session is a value of the second. -/
def Extends (before after : Session) : Prop :=
  ∀ key value, before.value? key = some value -> after.value? key = some value

namespace Extends

theorem refl (session : Session) : session.Extends session :=
  fun _ _ bound => bound

/-- Extension of sessions is transitive. -/
theorem trans
    {middle : Session}
    (first : before.Extends middle)
    (second : middle.Extends after) : before.Extends after :=
  fun key value bound => second key value (first key value bound)

/-- A session is ground if a larger one is. -/
theorem isGround
    (larger : before.Extends after)
    (ground : after.IsGround) : before.IsGround :=
  fun key value bound => ground key value (larger key value bound)

end Extends

/-- The second session is made from the first by entering keys, and giving keys
without a value one that their family accepts. The key is that of a metavariable
whose parameters are known at the time. -/
inductive GrowsTo (before : Session) : Session -> Prop
  | refl : GrowsTo before before
  | register {middle : Session} (grows : GrowsTo before middle) (key : Metavariable) :
      GrowsTo before (middle.register key)
  | bind
      {middle : Session}
      {key : Metavariable}
      {value : Expression}
      (grows : GrowsTo before middle)
      (accepts : key.family.accepts value = true)
      (known : ∃ metavariable, middle.resolvedKey metavariable = .ok key)
      (unbound : middle.value? key = none) :
      GrowsTo before ((middle.register key).assign key value)

/-- Every value is accepted by the family of its key. -/
def IsWellSorted (session : Session) : Prop :=
  ∀ binding ∈ session.bindings, ∀ value, binding.value = some value ->
    binding.key.family.accepts value = true

theorem IsWellSorted.empty : empty.IsWellSorted :=
  nofun

/-- Every value of a well-sorted session is of the sort of its key. -/
theorem IsWellSorted.eachValue (wellSorted : session.IsWellSorted) :
    session.EachValue fun key value => key.family.accepts value = true :=
  wellSorted

theorem IsWellSorted.register
    (wellSorted : session.IsWellSorted)
    (key : Metavariable) : (session.register key).IsWellSorted :=
  wellSorted.eachValue.register key

/-- A session stays well-sorted when a key is given a value of its sort. -/
theorem IsWellSorted.assign
    (wellSorted : session.IsWellSorted)
    (accepts : key.family.accepts value = true) :
    (session.assign key value).IsWellSorted := by
  refine wellSorted.eachValue.assign fun other same => ?_
  rw [((Metavariable.same_iff _ _).mp same).1]
  exact accepts

/-- A value that is found is accepted by the family it is looked up with. -/
theorem IsWellSorted.accepts_of_value?
    (wellSorted : session.IsWellSorted)
    (bound : session.value? key = some value) :
    key.family.accepts value = true := by
  obtain ⟨other, same, accepts⟩ := wellSorted.eachValue.of_value? bound
  rw [← ((Metavariable.same_iff _ _).mp same).1]
  exact accepts

namespace GrowsTo

/-- Growth of sessions is transitive. -/
theorem trans
    {middle : Session}
    (first : before.GrowsTo middle)
    (second : middle.GrowsTo after) : before.GrowsTo after := by
  induction second with
  | refl => exact first
  | register _ key inductionHypothesis => exact inductionHypothesis.register key
  | bind _ accepts known unbound inductionHypothesis =>
      exact inductionHypothesis.bind accepts known unbound

/-- No value is ever changed. -/
theorem preserves (grows : before.GrowsTo after) : before.Extends after := by
  induction grows with
  | refl => exact .refl before
  | register _ key inductionHypothesis =>
      intro key' value bound
      rw [value?_register]
      exact inductionHypothesis key' value bound
  | @bind middle key _ _ _ _ unbound inductionHypothesis =>
      intro key' value bound
      have bound := inductionHypothesis key' value bound
      cases same : key.same key' with
      | true =>
          rw [middle.value?_congr same, bound] at unbound
          cases unbound
      | false =>
          rw [middle.value?_bound_of_other _ same]
          exact bound

/-- A well-sorted session stays so when it grows. -/
theorem isWellSorted
    (grows : before.GrowsTo after)
    (wellSorted : before.IsWellSorted) : after.IsWellSorted := by
  induction grows with
  | refl => exact wellSorted
  | register _ key inductionHypothesis => exact inductionHypothesis.register key
  | bind _ accepts _ _ inductionHypothesis =>
      exact (inductionHypothesis.register _).assign accepts

end GrowsTo
end Session
end SymbolicLogic
