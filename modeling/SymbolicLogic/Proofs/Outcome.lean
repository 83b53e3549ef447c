import SymbolicLogic.Proofs.Lists

/-!
# Computations that may fail

A sequence of steps succeeds when all of its steps do, and a list of like steps
gives one result for each of its items.
-/

namespace SymbolicLogic

variable {α β ε : Type}

theorem bind_eq_ok
    {first : Except ε α}
    {next : α -> Except ε β}
    {result : β} :
    first >>= next = .ok result ↔
      ∃ value, first = .ok value ∧ next value = .ok result := by
  cases first with
  | error failure => simp [bind, Except.bind]
  | ok value => simp [bind, Except.bind]

theorem bind_eq_error
    {first : Except ε α}
    {next : α -> Except ε β}
    {failure : ε} :
    first >>= next = .error failure ↔
      first = .error failure ∨
        ∃ value, first = .ok value ∧ next value = .error failure := by
  cases first with
  | error failure => simp [bind, Except.bind]
  | ok value => simp [bind, Except.bind]

theorem map_eq_ok
    {f : α -> β}
    {first : Except ε α}
    {result : β} :
    first.map f = .ok result ↔ ∃ value, first = .ok value ∧ f value = result := by
  cases first with
  | error failure => simp [Except.map]
  | ok value => simp [Except.map]

/-- Each result is that of the item at its place. -/
theorem forall₂_of_mapM
    {f : α -> Except ε β}
    {items : List α}
    {results : List β}
    (found : items.mapM f = .ok results) :
    List.Forall₂ (fun item result => f item = .ok result) items results := by
  induction items generalizing results with
  | nil =>
      cases found
      exact .nil
  | cons item items inductionHypothesis =>
      rw [List.mapM_cons] at found
      obtain ⟨value, first, rest⟩ := bind_eq_ok.mp found
      obtain ⟨values, others, finished⟩ := bind_eq_ok.mp rest
      cases finished
      exact .cons first (inductionHypothesis others)

/-- Checks in order succeed only if each of them does. -/
theorem forall_of_forM
    {check : α -> Except ε Unit}
    {items : List α}
    (checked : items.forM check = .ok ()) :
    ∀ item ∈ items, check item = .ok () := by
  induction items with
  | nil => exact nofun
  | cons item items inductionHypothesis =>
      obtain ⟨⟨⟩, first, others⟩ := bind_eq_ok.mp checked
      exact List.forall_mem_cons.mpr ⟨first, inductionHypothesis others⟩

/-- Computations that all succeed give their results in order. -/
theorem mapM_eq_some
    {compute : α -> Option β}
    {result : α -> β}
    {items : List α}
    (each : ∀ item ∈ items, compute item = some (result item)) :
    items.mapM compute = some (items.map result) := by
  induction items with
  | nil => rfl
  | cons item items inductionHypothesis =>
      obtain ⟨first, others⟩ := List.forall_mem_cons.mp each
      rw [List.mapM_cons, first, inductionHypothesis others]
      rfl

theorem exists_of_mem_mapM
    {f : α -> Except ε β}
    {items : List α}
    {results : List β}
    (found : items.mapM f = .ok results)
    {result : β}
    (member : result ∈ results) :
    ∃ item ∈ items, f item = .ok result :=
  exists_of_mem_of_forall₂ (forall₂_of_mapM found) member

/-- If the results cannot all be computed, some item is to blame. -/
theorem exists_of_mapM_eq_error
    {f : α -> Except ε β}
    {items : List α}
    {failure : ε}
    (failed : items.mapM f = .error failure) :
    ∃ item ∈ items, f item = .error failure := by
  induction items with
  | nil => cases failed
  | cons item items inductionHypothesis =>
      rw [List.mapM_cons] at failed
      rcases bind_eq_error.mp failed with first | ⟨_, -, rest⟩
      · exact ⟨item, List.mem_cons_self, first⟩
      · rcases bind_eq_error.mp rest with others | ⟨_, -, ⟨⟩⟩
        obtain ⟨other, member, isFailure⟩ := inductionHypothesis others
        exact ⟨other, List.mem_cons_of_mem _ member, isFailure⟩

/-- The computation succeeds, and its value passes the test. -/
def succeedsWith (result : Except ε α) (test : α -> Bool) : Bool :=
  match result with
  | .ok value => test value
  | .error _ => false

/-- The computation fails, and its failure passes the test. -/
def failsWith (result : Except ε α) (test : ε -> Bool) : Bool :=
  match result with
  | .ok _ => false
  | .error failure => test failure

theorem exists_of_succeedsWith
    {result : Except ε α}
    {test : α -> Bool}
    (succeeds : succeedsWith result test = true) :
    ∃ value, result = .ok value ∧ test value = true := by
  cases result with
  | ok value => exact ⟨value, rfl, succeeds⟩
  | error failure => cases succeeds

theorem exists_of_failsWith
    {result : Except ε α}
    {test : ε -> Bool}
    (fails : failsWith result test = true) :
    ∃ failure, result = .error failure ∧ test failure = true := by
  cases result with
  | ok value => cases fails
  | error failure => exact ⟨failure, rfl, fails⟩

end SymbolicLogic
