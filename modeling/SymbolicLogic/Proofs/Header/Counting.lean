import SymbolicLogic.Proofs.Header.Runs

/-!
# How many items a text makes

A text is laid out where an item may begin: at the start, after an operator, or
after opening brackets. It makes at least as many items as are wanted, counting
the run that is still at hand at its end. It makes more exactly if a quantifier
in brackets is torn apart: a negation glyph after the divider ends the item of
the quantifier, since the blank before the glyph does.
-/

namespace SymbolicLogic
namespace Segmentation

/-- Laid out where an item may begin, the text makes `count` items if `even`
holds, and more if it does not. The last one is still at hand. -/
def Lays
    (cutting : Segmentation)
    (count : Nat)
    (even : Prop)
    (text : List Char) : Prop :=
  ∀ depth state, state.IsStart -> ∃ items begun bound,
    cutting.Reads text depth state items (.running begun 0 bound) ∧
      (∀ item ∈ items, item.holdsValues = true) ∧
      count ≤ items.length + 1 ∧
      (even ↔ items.length + 1 = count)

theorem State.IsStart.inner_eq {state : State} (start : state.IsStart) :
    state.inner = 0 := by
  cases state with
  | between | opened => rfl
  | running => cases start

variable {cutting : Segmentation} {text text' : List Char} {c : Char}
  {count count' : Nat} {even even' : Prop} {brackets : Brackets}

namespace Lays

theorem congr
    (lays : cutting.Lays count even text)
    (iff : even ↔ even') : cutting.Lays count even' text := by
  intro depth state start
  obtain ⟨items, begun, bound, reads, values, least, exact_iff⟩ :=
    lays depth state start
  exact ⟨items, begun, bound, reads, values, least, iff.symm.trans exact_iff⟩

/-- A text that joins is a single item. -/
theorem of_joins (joins : cutting.Joins text) : cutting.Lays 1 True text := by
  intro depth state start
  obtain ⟨begun, reads⟩ := joins depth state
  rw [start.inner_eq] at reads
  exact ⟨[], begun, state.bound, reads, nofun, Nat.le_refl _, by simp⟩

theorem of_binds (binds : cutting.Binds text) : cutting.Lays 1 True text := by
  intro depth state start
  obtain ⟨begun, reads⟩ := binds depth state
  rw [start.inner_eq] at reads
  exact ⟨[], begun, true, reads, nofun, Nat.le_refl _, by simp⟩

/-- What joins is a part of the last item. -/
theorem append_joins
    (lays : cutting.Lays count even text)
    (joins : cutting.Joins text') :
    cutting.Lays count even (text ++ text') := by
  intro depth state start
  obtain ⟨items, middle, bound, reads, values, counts⟩ := lays depth state start
  obtain ⟨begun, reads'⟩ := joins depth (.running middle 0 bound)
  have both := reads.append reads'
  rw [List.append_nil] at both
  exact ⟨items, begun, bound, both, values, counts⟩

/-- Brackets around a text leave the number of its items as it is. -/
theorem enclosed
    (pair : cutting.IsPair brackets)
    (lays : cutting.Lays count even text) :
    cutting.Lays count even (enclosedText brackets text) := by
  intro depth state start
  have opened : (afterOpening state brackets.opening depth).IsStart := by
    cases state with
    | between | opened => trivial
    | running => cases start
  obtain ⟨items, begun, bound, reads, values, counts⟩ :=
    lays (depth + 1) _ opened
  obtain ⟨begun', around⟩ := reads.enclosed_running pair
  exact ⟨items, begun', bound, around, values, counts⟩

/-- An operator in front is one more item. -/
theorem operator
    (operates : cutting.classOf c = .operator)
    (lays : cutting.Lays count even text) :
    cutting.Lays (count + 1) even (c :: text) := by
  intro depth state start
  have after : ∃ item, cutting.afterOperator state c = ([item], .between) := by
    cases state with
    | between | opened => exact ⟨_, rfl⟩
    | running => cases start
  obtain ⟨item, after⟩ := after
  have read := Reads.operator operates depth state
  have isValue := (afterOperator_settles cutting state c).2
  rw [after] at read isValue
  obtain ⟨items, begun, bound, reads, values, least, exact_iff⟩ :=
    lays depth .between trivial
  refine ⟨[item] ++ items, begun, bound, read.append reads,
    List.forall_mem_append.mpr ⟨isValue, values⟩, ?_, ?_⟩
  · rw [List.singleton_append, List.length_cons]
    omega
  · rw [exact_iff, List.singleton_append, List.length_cons]
    omega

end Lays

/-- Where no item is at hand, a blank does nothing. -/
theorem Reads.space_between
    {operated : Bool}
    (begins : cutting.Begins text operated)
    {depth : Nat}
    {items : List HeaderItem}
    {state : State}
    (reads : cutting.Reads text depth .between items state) :
    cutting.Reads (' ' :: text) depth .between items state := by
  obtain ⟨kind, next, -⟩ := begins.nextSolid?
  exact Reads.space next reads

/-- A blank before an operator ends a run that has no bracket open. -/
theorem Reads.space_ends
    (begins : cutting.Begins text true)
    {depth : Nat}
    {items : List HeaderItem}
    {state : State}
    (reads : cutting.Reads text depth .between items state)
    (begun : List TextRun)
    (bound : Bool) :
    cutting.Reads (' ' :: text) depth (.running begun 0 bound)
      (itemOf begun :: items) state := by
  obtain ⟨kind, next, isOperator⟩ := begins.nextSolid?
  have kindEq : kind = .operator := isOperator
  have ended : afterSpace (.running begun 0 bound) ' ' (some kind) =
      ([itemOf begun], .between) := by
    simp [afterSpace, kindEq]
  have reads' : cutting.Reads text depth
      (afterSpace (.running begun 0 bound) ' ' (some kind)).2 items state := by
    rw [ended]
    exact reads
  have read := Reads.space next reads'
  rw [ended] at read
  exact read

namespace Lays

/-- An operator between two texts ends the items of the left one. -/
theorem spaced
    {operated : Bool}
    (lays : cutting.Lays count even text)
    (operates : cutting.classOf c = .operator)
    (begins : cutting.Begins text' operated)
    (lays' : cutting.Lays count' even' text') :
    cutting.Lays (count + 1 + count') (even ∧ even')
      (text ++ ' ' :: c :: ' ' :: text') := by
  intro depth state start
  obtain ⟨items, middle, met, reads, values, least, exact_iff⟩ :=
    lays depth state start
  obtain ⟨items', begun, bound, reads', values', least', exact_iff'⟩ :=
    lays' depth .between trivial
  have readRight := (Reads.operator operates depth .between).append
    (reads'.space_between begins)
  have both := reads.append
    (readRight.space_ends ⟨c, ⟨_, rfl⟩, operates⟩ middle met)
  refine ⟨_, begun, bound, both, ?_, ?_, ?_⟩
  · simp only [List.forall_mem_append, List.forall_mem_cons]
    exact ⟨values, rfl, (afterOperator_settles cutting .between c).2, values'⟩
  · simp only [List.length_append, List.length_cons, afterOperator,
      List.length_nil]
    omega
  · simp only [List.length_append, List.length_cons, afterOperator,
      List.length_nil]
    rw [exact_iff, exact_iff']
    omega

/-- A quantifier is torn apart by an operator after its divider. -/
theorem broken
    {opened scope : List Char}
    (pair : cutting.IsPair brackets)
    (binds : cutting.Binds opened)
    (begins : cutting.Begins text true)
    (settles : cutting.Settles text)
    (settlesScope : cutting.Settles scope) :
    cutting.Lays 1 False
      (enclosedText brackets (opened ++ ' ' :: text) ++ scope) := by
  intro depth state start
  have startInside : (afterOpening state brackets.opening depth).inner = 0 := by
    cases state with
    | between | opened => rfl
    | running => cases start
  obtain ⟨middle, readOpened⟩ :=
    binds (depth + 1) (afterOpening state brackets.opening depth)
  rw [startInside] at readOpened
  obtain ⟨items, inside, met, readText, values⟩ := settles (depth + 1) .between
  have readInside :=
    readOpened.append (readText.space_ends begins middle true)
  obtain ⟨around, readEnclosed⟩ := readInside.enclosed_running pair
  obtain ⟨items', begun, bound, readScope, values'⟩ :=
    settlesScope depth (.running around 0 met)
  refine ⟨_, begun, bound, readEnclosed.append readScope, ?_, ?_, ?_⟩
  · simp only [List.forall_mem_append, List.forall_mem_cons, List.nil_append]
    exact ⟨⟨rfl, values⟩, values'⟩
  · exact Nat.le_add_left _ _
  · simp

end Lays
end Segmentation
end SymbolicLogic
