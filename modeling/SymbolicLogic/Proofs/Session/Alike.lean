import SymbolicLogic.Proofs.Session.Lookup

/-!
# Sessions that are alike

Sessions are alike if they have the same keys with the same values, whatever the
order in which the keys were entered and however keys and values are written. Then
what is the same reads as the same in both, metavariables without a value included,
and the same metavariable has the same key.
-/

namespace SymbolicLogic

open Session Expression

/-- Both values are missing, or they are the same. -/
abbrev Expression.SameOption : Option Expression -> Option Expression -> Prop :=
  Option.Rel fun left right => left.same right = true

/-- Values are the same, or both missing, if their standard forms are equal. -/
theorem Expression.sameOption_iff (left right : Option Expression) :
    SameOption left right ↔
      left.map Expression.standard = right.map Expression.standard := by
  cases left <;> cases right <;> simp [Expression.same_iff]

/-- The bindings have the same key, and the same value or none. -/
structure Binding.Alike (left right : Binding) : Prop where
  keys : left.key.same right.key = true
  values : SameOption left.value right.value

/-- The same keys are bound to the same values, and the same keys have no value. -/
def Session.Alike (left right : Session) : Prop :=
  ∀ key, Option.Rel Binding.Alike (left.find? key) (right.find? key)

/-- A key is compared alike to keys that are the same, on either side. -/
theorem Metavariable.same_congr_both
    {left right left' right' : Metavariable}
    (first : left.same left' = true)
    (second : right.same right' = true) :
    left.same right = left'.same right' := by
  rw [same_congr second left, same_comm, same_congr first right', same_comm]

namespace Session

/-- Sessions are alike if each key is found in both or in neither, and with the
same value. -/
theorem alike_iff (left right : Session) :
    left.Alike right ↔ ∀ key,
      (left.find? key).map (fun binding => binding.value.map standard) =
        (right.find? key).map fun binding => binding.value.map standard := by
  refine forall_congr' fun key => ?_
  cases found : left.find? key with
  | none => cases right.find? key <;> simp
  | some binding =>
      cases found' : right.find? key with
      | none => simp
      | some binding' =>
          have keys : binding.key.same binding'.key = true := by
            rw [Metavariable.same_congr_both (same_of_find? found)
              (same_of_find? found'), Metavariable.same_refl]
          simp only [Option.rel_some_some, Option.map_some, Option.some.injEq,
            ← sameOption_iff]
          exact ⟨fun alike => alike.values, fun values => ⟨keys, values⟩⟩

namespace Alike

variable {left right third : Session} {key key' : Metavariable}
  {value value' : Expression}

/-- A session is alike to itself. -/
theorem refl (session : Session) : session.Alike session :=
  (alike_iff session session).mpr fun _ => rfl

theorem symm (alike : left.Alike right) : right.Alike left := by
  rw [alike_iff] at alike ⊢
  exact fun key => (alike key).symm

/-- Likeness of sessions is transitive. -/
theorem trans (alike : left.Alike right) (alike' : right.Alike third) :
    left.Alike third := by
  rw [alike_iff] at alike alike' ⊢
  exact fun key => (alike key).trans (alike' key)

/-- In alike sessions the same keys have the same values. -/
theorem value? (alike : left.Alike right) (same : key.same key' = true) :
    SameOption (left.value? key) (right.value? key') := by
  rw [← right.value?_congr same, Session.value?, Session.value?]
  have found := alike key
  generalize left.find? key = binding, right.find? key = binding' at found ⊢
  cases found with
  | none => exact .none
  | some alike => exact alike.values

/-- The same key is entered, in both sessions. -/
theorem register (alike : left.Alike right) (same : key.same key' = true) :
    (left.register key).Alike (right.register key') := by
  intro other
  have compared : key.same other = key'.same other :=
    Metavariable.same_congr_both same other.same_refl
  have found := alike other
  rw [find?_register, find?_register, compared]
  generalize left.find? other = binding, right.find? other = binding' at found ⊢
  cases found with
  | some alike => exact .some alike
  | none =>
      cases key'.same other with
      | false => exact .none
      | true => exact .some ⟨same, .none⟩

/-- The same key is given the same value, in both sessions. -/
theorem assign
    (alike : left.Alike right)
    (same : key.same key' = true)
    (values : value.same value' = true) :
    (left.assign key value).Alike (right.assign key' value') := by
  intro other
  have found := alike other
  rw [find?_assign, find?_assign]
  generalize left.find? other = first, right.find? other = second at found ⊢
  cases found with
  | none => exact .none
  | @some binding binding' alike =>
      have compared : binding.key.same key = binding'.key.same key' :=
        Metavariable.same_congr_both alike.keys same
      rw [Option.map_some, Option.map_some, compared]
      split
      · exact .some ⟨alike.keys, .some values⟩
      · exact .some alike

end Alike
end Session

/-- The readings give the same meanings to the same metavariables, and attach the
same substitutions alike. -/
structure Reading.Alike (left right : Reading) : Prop where
  meaning :
    ∀ (key key' : Metavariable) (read read' : List Term),
      key.same key' = true -> Term.sameAll read read' = true ->
      SameOption (left.meaning key.family key.symbol key.params read)
        (right.meaning key'.family key'.symbol key'.params read')
  attach :
    ∀ (carrier carrier' : Expression) (transform transform' : Transform),
      carrier.same carrier' = true -> transform.same transform' = true ->
      (left.attach carrier transform).same (right.attach carrier' transform') =
        true

namespace Expression

variable {reading reading' : Reading} {left right : Expression}

/-- A metavariable that stays in one reading stays in the other. -/
theorem keeps_of_same
    {metavariable metavariable' : Metavariable}
    (isMetavariable : left.metaNode? = some metavariable)
    (isMetavariable' : right.metaNode? = some metavariable')
    (same : left.same right = true)
    (meanings : SameOption (reading.meaningOf metavariable)
      (reading'.meaningOf metavariable'))
    (keeps : reading.Keeps left) : reading'.Keeps right := by
  intro other value' isOther meaning'
  cases isMetavariable'.symm.trans isOther
  rw [meaning'] at meanings
  generalize meaningEq : reading.meaningOf metavariable = meaning at meanings
  cases meanings with
  | some values =>
      rw [← isSentence_eq_of_same same, ← isSentence_eq_of_same values]
      exact keeps metavariable _ isMetavariable meaningEq

/-- What is the same is read as the same. -/
theorem same_readBy
    (alike : reading.Alike reading')
    (same : left.same right = true) :
    (left.readBy reading).same (right.readBy reading') = true := by
  induction left using nodeInduction generalizing right with
  | plain left plain inductionHypothesis =>
      have plain' := transform?_eq_none_of_same plain same
      obtain ⟨heads, parts⟩ := (same_iff_parts plain plain').mp same
      have read : List.Forall₂ (fun first second => first.same second = true)
          (left.children.map fun part => part.readBy reading)
          (right.children.map fun part => part.readBy reading') := by
        rw [List.forall₂_map_left_iff, List.forall₂_map_right_iff]
        exact ((List.forall₂_and_left _ _).mpr ⟨inductionHypothesis, parts⟩).imp
          fun _ _ ⟨reads, same⟩ => reads same
      cases isMetavariable' : right.metaNode? with
      | none =>
          have isMetavariable : left.metaNode? = none :=
            metaNode?_eq_none_of_head heads.symm isMetavariable'
          obtain ⟨plainRead, headRead, partsRead⟩ :=
            readBy_parts reading plain isMetavariable
          obtain ⟨plainRead', headRead', partsRead'⟩ :=
            readBy_parts reading' plain' isMetavariable'
          rw [same_iff_parts plainRead plainRead', headRead, headRead', partsRead,
            partsRead']
          exact ⟨heads, read⟩
      | some metavariable' =>
          obtain ⟨metavariable, isMetavariable, keys⟩ :=
            exists_metaNode?_of_same plain same isMetavariable'
          have writes := writes_of_metaNode? plain isMetavariable
          have writes' := writes_of_metaNode? plain' isMetavariable'
          have params : Term.sameAll (Term.readAllBy metavariable.params reading)
              (Term.readAllBy metavariable'.params reading') = true := by
            rw [writes.children_eq, writes'.children_eq, List.map_map,
              List.map_map, List.forall₂_map_left_iff,
              List.forall₂_map_right_iff] at read
            rw [Term.sameAll_iff_forall₂, Term.readAllBy_eq_map,
              Term.readAllBy_eq_map, List.forall₂_map_left_iff,
              List.forall₂_map_right_iff]
            exact read
          have meanings : SameOption (reading.meaningOf metavariable)
              (reading'.meaningOf metavariable') :=
            alike.meaning metavariable metavariable' _ _ keys params
          rcases meaning_or_keeps reading plain with
            ⟨other, isOther, meaning⟩ | keeps
          · cases isMetavariable.symm.trans isOther
            rw [meaning] at meanings
            generalize meaningEq : reading'.meaningOf metavariable' = meaning'
              at meanings
            cases meanings with
            | some values =>
                rw [readBy_of_meaning reading' plain' isMetavariable' meaningEq]
                · exact values
                · rw [← isSentence_eq_of_same values, isSentence_readBy,
                    isSentence_eq_of_same same]
          · have keeps' := keeps_of_same isMetavariable isMetavariable' same
              meanings keeps
            rw [same_iff_parts (transform?_readBy_of_keeps plain keeps)
              (transform?_readBy_of_keeps plain' keeps'),
              head_readBy_of_keeps plain keeps,
              head_readBy_of_keeps plain' keeps',
              (writes.writes_readBy keeps).children_eq,
              (writes'.writes_readBy keeps').children_eq,
              List.forall₂_map_left_iff, List.forall₂_map_right_iff]
            exact ⟨heads, (Term.sameAll_iff_forall₂ _ _).mp params⟩
  | transformed left transform pending carrier target replacement =>
      obtain ⟨transform', pending', transforms, carriers⟩ :=
        exists_transform?_of_same pending same
      have sides :
          (term transform.target).same (term transform'.target) = true ∧
            (term transform.replacement).same (term transform'.replacement) =
              true := Bool.and_eq_true_iff.mp transforms
      rw [readBy_of_pending pending, readBy_of_pending pending']
      refine alike.attach _ _ _ _ (carrier carriers) ?_
      exact Bool.and_eq_true_iff.mpr ⟨target sides.1, replacement sides.2⟩

end Expression

namespace Session.Alike

variable {left right : Session} (alike : left.Alike right)

include alike

/-- Alike sessions instantiate alike. -/
theorem instantiate :
    (Reading.instantiate left).Alike (Reading.instantiate right) where
  meaning key key' read read' keys reads := by
    obtain ⟨families, symbols, -⟩ := (Metavariable.same_iff _ _).mp keys
    exact alike.value? ((Metavariable.same_iff _ _).mpr
      ⟨families, symbols, (Term.sameAll_iff _ _).mp reads⟩)
  attach carrier carrier' transform transform' carriers transforms := by
    rw [Transform.same_iff] at transforms
    match carrier, carrier' with
    | .formula f, .formula f' =>
        have formulas := (Formula.same_iff f f').mp carriers
        exact (Formula.same_iff _ _).mpr (by simp [formulas, transforms])
    | .term t, .term t' =>
        have terms := (Term.same_iff t t').mp carriers
        exact (Term.same_iff _ _).mpr (by simp [terms, transforms])
    | .formula _, .term _ | .term _, .formula _ => cases carriers

/-- The same metavariable has the same key. -/
theorem key
    {metavariable metavariable' : Metavariable}
    (same : metavariable.same metavariable' = true) :
    (left.key metavariable.family metavariable.symbol metavariable.params).same
      (right.key metavariable'.family metavariable'.symbol
        metavariable'.params) = true := by
  obtain ⟨families, symbols, params⟩ := (Metavariable.same_iff_parts _ _).mp same
  refine (Metavariable.same_iff_parts _ _).mpr ⟨families, symbols, ?_⟩
  rw [Session.key, Session.key, Term.readAllBy_eq_map, Term.readAllBy_eq_map,
    List.forall₂_map_left_iff, List.forall₂_map_right_iff]
  refine params.imp fun first second same => ?_
  have terms : (term first).same (term second) = true := same
  exact same_readBy alike.instantiate terms

/-- Alike sessions resolve alike. -/
theorem resolve : (Reading.resolve left).Alike (Reading.resolve right) where
  meaning key key' _ _ keys _ := by
    rw [Reading.resolve_meaning, Reading.resolve_meaning]
    have values := alike.value? (alike.key keys)
    generalize left.value? (left.key ..) = value,
      right.value? (right.key ..) = value' at values ⊢
    cases values with
    | none => exact .none
    | some values => exact .some (same_carryOut values)
  attach carrier carrier' transform transform' carriers transforms := by
    rw [Transform.same_iff] at transforms
    match carrier, carrier' with
    | .formula f, .formula f' =>
        have formulas := (Formula.same_iff f f').mp carriers
        exact (Formula.same_iff _ _).mpr
          (by simp [Formula.standard_settle, formulas, transforms])
    | .term t, .term t' =>
        have terms := (Term.same_iff t t').mp carriers
        exact (Term.same_iff _ _).mpr
          (by simp [Term.standard_settle, terms, transforms])
    | .formula _, .term _ | .term _, .formula _ => cases carriers

/-- What is the same has metavariables without a value in both sessions or in
neither. -/
theorem unbound?_eq_none_iff
    {expression expression' : Expression}
    (same : expression.same expression' = true) :
    expression.unbound? left = none ↔ expression'.unbound? right = none := by
  induction expression using nodeInduction generalizing expression' with
  | plain expression plain inductionHypothesis =>
      have plain' := transform?_eq_none_of_same plain same
      obtain ⟨heads, parts⟩ := (same_iff_parts plain plain').mp same
      have unbound : (∀ part ∈ expression.children, part.unbound? left = none) ↔
          ∀ part ∈ expression'.children, part.unbound? right = none :=
        forall_mem_iff_of_forall₂ <|
          ((List.forall₂_and_left _ _).mpr ⟨inductionHypothesis, parts⟩).imp
            fun _ _ ⟨unbound, same⟩ => unbound same
      cases isMetavariable' : expression'.metaNode? with
      | none =>
          have isMetavariable : expression.metaNode? = none :=
            metaNode?_eq_none_of_head heads.symm isMetavariable'
          rw [unbound?_eq_none_iff_parts plain isMetavariable,
            unbound?_eq_none_iff_parts plain' isMetavariable', unbound]
      | some metavariable' =>
          obtain ⟨metavariable, isMetavariable, keys⟩ :=
            exists_metaNode?_of_same plain same isMetavariable'
          have writes := writes_of_metaNode? plain isMetavariable
          have writes' := writes_of_metaNode? plain' isMetavariable'
          have values : SameOption _ _ := alike.value? (alike.key keys)
          rw [unbound?_eq_none_iff_value writes,
            unbound?_eq_none_iff_value writes', unboundAmong?_eq_none_iff,
            unboundAmong?_eq_none_iff, ← writes.children_eq,
            ← writes'.children_eq, unbound]
          rw [sameOption_iff] at values
          rw [← Option.isSome_map, values, Option.isSome_map]
  | transformed expression transform pending carrier target replacement =>
      obtain ⟨transform', pending', transforms, carriers⟩ :=
        exists_transform?_of_same pending same
      have sides :
          (term transform.target).same (term transform'.target) = true ∧
            (term transform.replacement).same (term transform'.replacement) =
              true := Bool.and_eq_true_iff.mp transforms
      rw [unbound?_eq_none_iff_of_transformed pending,
        unbound?_eq_none_iff_of_transformed pending', carrier carriers,
        target sides.1, replacement sides.2]

/-- The same metavariable has a key in both sessions or in neither. -/
theorem unboundAmong?_eq_none_iff
    {metavariable metavariable' : Metavariable}
    (same : metavariable.same metavariable' = true) :
    Term.unboundAmong? metavariable.params left = none ↔
      Term.unboundAmong? metavariable'.params right = none := by
  obtain ⟨-, -, params⟩ := (Metavariable.same_iff_parts _ _).mp same
  rw [Expression.unboundAmong?_eq_none_iff, Expression.unboundAmong?_eq_none_iff,
    List.forall_mem_map, List.forall_mem_map]
  refine forall_mem_iff_of_forall₂ (params.imp fun first second same => ?_)
  have terms : (term first).same (term second) = true := same
  exact alike.unbound?_eq_none_iff terms

end Session.Alike
end SymbolicLogic
