import SymbolicLogic.Proofs.Header.Scanning

/-!
# How texts go into items

A text *joins* when it adds no item of its own: it goes on with the item at hand
wherever it is read. A text that *binds* joins too, and leaves a run that has met
a binder. A text *stays* when it goes on with such a run. A text *settles* when
it ends in a run, whatever items it makes on the way. Each of these properties
passes from the parts of a text to the text.
-/

namespace SymbolicLogic
namespace Segmentation

/-- The text is a symbol that is written as it is: neither a blank nor a bracket
nor an operator, and no binder. -/
def IsWord (cutting : Segmentation) (text : List Char) : Prop :=
  text ≠ [] ∧
    ∀ c ∈ text, cutting.classOf c = .relation ∧
      cutting.operators.isBinder c = false

/-- Both brackets of the pair are brackets of the notation. -/
structure IsPair (cutting : Segmentation) (brackets : Brackets) : Prop where
  opens : cutting.classOf brackets.opening = .opening
  closes : cutting.classOf brackets.closing = .closing

/-- The text between brackets. -/
def enclosedText (brackets : Brackets) (text : List Char) : List Char :=
  brackets.opening :: (text ++ [brackets.closing])

/-- The text begins with an operator, or with a symbol or a bracket. -/
def Begins
    (cutting : Segmentation)
    (text : List Char)
    (operated : Bool) : Prop :=
  ∃ c, (∃ rest, text = c :: rest) ∧
    if operated then cutting.classOf c = .operator
    else cutting.classOf c = .relation ∨ cutting.classOf c = .opening

/-- The text goes on with the item at hand. -/
def Joins (cutting : Segmentation) (text : List Char) : Prop :=
  ∀ depth state, ∃ begun,
    cutting.Reads text depth state [] (.running begun state.inner state.bound)

/-- The text goes on with the item at hand, and meets a binder. -/
def Binds (cutting : Segmentation) (text : List Char) : Prop :=
  ∀ depth state, ∃ begun,
    cutting.Reads text depth state [] (.running begun state.inner true)

/-- With at least `least` brackets open in a run that has met a binder, the text
goes on with this run. -/
def Stays (cutting : Segmentation) (least : Nat) (text : List Char) : Prop :=
  ∀ depth begun inner, least ≤ inner -> ∃ begun',
    cutting.Reads text depth (.running begun inner true) []
      (.running begun' inner true)

/-- The text ends in a run, with as many brackets open in it as before, and
makes value items only. -/
def Settles (cutting : Segmentation) (text : List Char) : Prop :=
  ∀ depth state, ∃ items begun bound,
    cutting.Reads text depth state items (.running begun state.inner bound) ∧
      ∀ item ∈ items, item.holdsValues = true

variable {cutting : Segmentation} {text text' : List Char} {c : Char}
  {depth : Nat} {state : State} {items : List HeaderItem} {least : Nat}
  {brackets : Brackets} {operated : Bool}

/-! ## Single characters -/

theorem Begins.append
    (begins : cutting.Begins text operated)
    (text' : List Char) : cutting.Begins (text ++ text') operated := by
  obtain ⟨c, ⟨rest, rfl⟩, kind⟩ := begins
  exact ⟨c, ⟨rest ++ text', rfl⟩, kind⟩

theorem IsWord.begins (word : cutting.IsWord text) :
    cutting.Begins text false := by
  obtain ⟨nonempty, relations⟩ := word
  cases text with
  | nil => exact absurd rfl nonempty
  | cons c rest =>
      exact ⟨c, ⟨rest, rfl⟩, .inl (relations c List.mem_cons_self).1⟩

theorem IsPair.begins (pair : cutting.IsPair brackets) (text : List Char) :
    cutting.Begins (enclosedText brackets text) false :=
  ⟨_, ⟨_, rfl⟩, .inr pair.opens⟩

theorem Begins.nextSolid?
    (begins : cutting.Begins text operated) :
    ∃ kind, (∀ rest, cutting.nextSolid? (text ++ rest) = some kind) ∧
      if operated then kind = .operator
      else kind = .relation ∨ kind = .opening := by
  obtain ⟨c, begins, kind⟩ := begins
  refine ⟨cutting.classOf c, nextSolid?_append begins rfl ?_, kind⟩
  cases operated with
  | true => rw [show cutting.classOf c = .operator from kind]; exact nofun
  | false =>
      rcases (kind : _ ∨ _) with kind | kind
      · rw [kind]
        exact nofun
      · rw [kind]
        exact nofun

theorem exists_afterRelation (cutting : Segmentation) (state : State) (c : Char) :
    ∃ begun, cutting.afterRelation state c =
      .running begun state.inner (state.bound || cutting.operators.isBinder c) := by
  cases state with
  | between => exact ⟨_, rfl⟩
  | opened begun => exact ⟨_, rfl⟩
  | running begun inner bound => exact ⟨_, rfl⟩

theorem inner_afterOpening (state : State) (c : Char) (depth : Nat) :
    (afterOpening state c depth).inner - 1 = state.inner := by
  cases state <;> rfl

theorem bound_afterOpening (state : State) (c : Char) (depth : Nat) :
    (afterOpening state c depth).bound = state.bound := by
  cases state <;> rfl

/-- A run inside brackets goes on after them, with one bracket less open. -/
theorem Reads.enclosed_running
    {begun : List TextRun}
    {inner : Nat}
    {bound : Bool}
    (pair : cutting.IsPair brackets)
    (reads : cutting.Reads text (depth + 1)
      (afterOpening state brackets.opening depth) items
      (.running begun inner bound)) :
    ∃ begun', cutting.Reads (enclosedText brackets text) depth state items
      (.running begun' (inner - 1) bound) := by
  have around := Reads.enclosed pair.opens pair.closes reads
  rw [afterClosing, List.append_nil] at around
  exact ⟨_, around⟩

/-- A blank before a symbol or a bracket belongs to the item at hand. -/
theorem afterSpace_of_begins
    {kind : GlyphClass}
    (solid : kind = .relation ∨ kind = .opening)
    (state : State) :
    (afterSpace state ' ' (some kind)).1 = [] ∧
      (afterSpace state ' ' (some kind)).2.inner = state.inner ∧
      (afterSpace state ' ' (some kind)).2.bound = state.bound := by
  rcases solid with rfl | rfl
  · cases state <;> simp [afterSpace, State.inner, State.bound]
  · cases state <;> simp [afterSpace, State.inner, State.bound]

/-- A blank may end the item at hand, but changes no number of brackets. -/
theorem afterSpace_settles (state : State) (next : Option GlyphClass) :
    (afterSpace state ' ' next).2.inner = state.inner ∧
      ∀ item ∈ (afterSpace state ' ' next).1, item.holdsValues = true := by
  cases state with
  | between => exact ⟨rfl, nofun⟩
  | opened begun =>
      rw [afterSpace]
      split
      · exact ⟨rfl, by simp [itemOf, HeaderItem.holdsValues]⟩
      · exact ⟨rfl, nofun⟩
  | running begun inner bound =>
      rw [afterSpace]
      split
      · exact ⟨rfl, nofun⟩
      · next stops =>
          refine ⟨?_, by simp [itemOf, HeaderItem.holdsValues]⟩
          have closed : ¬inner > 0 := fun isOpen => stops (by simp [isOpen])
          exact (Nat.eq_zero_of_not_pos closed).symm

theorem holdsValues_operatorItem (cutting : Segmentation) (c : Char) :
    (cutting.operatorItem c).holdsValues = true := by
  rw [operatorItem]
  split <;> rfl

/-- An operator may end the item at hand, and makes one, unless it belongs to a
run. -/
theorem afterOperator_settles
    (cutting : Segmentation)
    (state : State)
    (c : Char) :
    (cutting.afterOperator state c).2.inner = state.inner ∧
      ∀ item ∈ (cutting.afterOperator state c).1, item.holdsValues = true := by
  have isValue := holdsValues_operatorItem cutting c
  cases state with
  | between => exact ⟨rfl, by simpa [afterOperator] using isValue⟩
  | opened begun =>
      exact ⟨rfl, by simp [afterOperator, itemOf, HeaderItem.holdsValues]⟩
  | running begun inner bound =>
      rw [afterOperator]
      split
      · exact ⟨rfl, nofun⟩
      · next stops =>
          refine ⟨?_, by simpa [itemOf, HeaderItem.holdsValues] using isValue⟩
          have closed : ¬inner > 0 := fun isOpen => stops (by simp [isOpen])
          exact (Nat.eq_zero_of_not_pos closed).symm

/-! ## Texts that join -/

namespace Joins

theorem append
    (joins : cutting.Joins text)
    (joins' : cutting.Joins text') : cutting.Joins (text ++ text') := by
  intro depth state
  obtain ⟨middle, reads⟩ := joins depth state
  obtain ⟨begun, reads'⟩ := joins' depth (.running middle state.inner state.bound)
  exact ⟨begun, reads.append reads'⟩

/-- A word joins. -/
theorem of_isWord (word : cutting.IsWord text) : cutting.Joins text := by
  obtain ⟨nonempty, relations⟩ := word
  have single {c : Char} (member : c ∈ text) : cutting.Joins [c] := by
    intro depth state
    have ⟨relates, notBinder⟩ := relations c member
    have reads := Reads.relation relates depth state
    obtain ⟨begun, after⟩ := exists_afterRelation cutting state c
    rw [after, notBinder, Bool.or_false] at reads
    exact ⟨begun, reads⟩
  clear relations
  induction text with
  | nil => exact absurd rfl nonempty
  | cons c rest inductionHypothesis =>
      cases rest with
      | nil => exact single List.mem_cons_self
      | cons next others =>
          exact (single List.mem_cons_self).append
            (inductionHypothesis (List.cons_ne_nil _ _) fun member =>
              single (List.mem_cons_of_mem _ member))

theorem enclosed
    (pair : cutting.IsPair brackets)
    (joins : cutting.Joins text) :
    cutting.Joins (enclosedText brackets text) := by
  intro depth state
  obtain ⟨begun, reads⟩ :=
    joins (depth + 1) (afterOpening state brackets.opening depth)
  obtain ⟨begun', around⟩ := reads.enclosed_running pair
  rw [inner_afterOpening, bound_afterOpening] at around
  exact ⟨begun', around⟩

theorem space
    (begins : cutting.Begins text false)
    (joins : cutting.Joins text) : cutting.Joins (' ' :: text) := by
  intro depth state
  obtain ⟨kind, next, solid⟩ := begins.nextSolid?
  obtain ⟨noItem, innerEq, boundEq⟩ := afterSpace_of_begins solid state
  obtain ⟨begun, reads⟩ := joins depth (afterSpace state ' ' (some kind)).2
  have read := Reads.space next reads
  rw [noItem, innerEq, boundEq] at read
  exact ⟨begun, read⟩

end Joins

/-! ## Texts that bind -/

namespace Binds

theorem append
    (binds : cutting.Binds text)
    (stays : cutting.Stays 0 text') : cutting.Binds (text ++ text') := by
  intro depth state
  obtain ⟨middle, reads⟩ := binds depth state
  obtain ⟨begun, reads'⟩ := stays depth middle state.inner (Nat.zero_le _)
  exact ⟨begun, reads.append reads'⟩

/-- A binder binds. -/
theorem of_isBinder
    (relates : cutting.classOf c = .relation)
    (isBinder : cutting.operators.isBinder c = true) :
    cutting.Binds [c] := by
  intro depth state
  have reads := Reads.relation relates depth state
  obtain ⟨begun, after⟩ := exists_afterRelation cutting state c
  rw [after, isBinder, Bool.or_true] at reads
  exact ⟨begun, reads⟩

theorem enclosed
    (pair : cutting.IsPair brackets)
    (binds : cutting.Binds text) :
    cutting.Binds (enclosedText brackets text) := by
  intro depth state
  obtain ⟨begun, reads⟩ :=
    binds (depth + 1) (afterOpening state brackets.opening depth)
  obtain ⟨begun', around⟩ := reads.enclosed_running pair
  rw [inner_afterOpening] at around
  exact ⟨begun', around⟩

end Binds

/-! ## Texts that stay -/

namespace Stays

theorem of_joins (joins : cutting.Joins text) (least : Nat) :
    cutting.Stays least text :=
  fun depth begun inner _ => joins depth (.running begun inner true)

theorem of_binds (binds : cutting.Binds text) (least : Nat) :
    cutting.Stays least text :=
  fun depth begun inner _ => binds depth (.running begun inner true)

theorem weaken (stays : cutting.Stays 0 text) (least : Nat) :
    cutting.Stays least text :=
  fun depth begun inner _ => stays depth begun inner (Nat.zero_le _)

theorem append
    (stays : cutting.Stays least text)
    (stays' : cutting.Stays least text') :
    cutting.Stays least (text ++ text') := by
  intro depth begun inner enough
  obtain ⟨middle, reads⟩ := stays depth begun inner enough
  obtain ⟨begun', reads'⟩ := stays' depth middle inner enough
  exact ⟨begun', reads.append reads'⟩

/-- A unary operator belongs to the run once that has met a binder. -/
theorem of_isUnary
    (operates : cutting.classOf c = .operator)
    (isUnary : cutting.operators.isUnary c = true) :
    cutting.Stays 0 [c] := by
  intro depth begun inner _
  have reads := Reads.operator operates depth (.running begun inner true)
  rw [afterOperator, if_pos (by simp [isUnary])] at reads
  exact ⟨_, reads⟩

/-- Inside brackets every operator belongs to the run. -/
theorem of_operator (operates : cutting.classOf c = .operator) :
    cutting.Stays 1 [c] := by
  intro depth begun inner isOpen
  have reads := Reads.operator operates depth (.running begun inner true)
  rw [afterOperator, if_pos (by simp; omega)] at reads
  exact ⟨_, reads⟩

theorem space
    (begins : cutting.Begins text false)
    (stays : cutting.Stays least text) :
    cutting.Stays least (' ' :: text) := by
  intro depth begun inner enough
  obtain ⟨kind, next, solid⟩ := begins.nextSolid?
  obtain ⟨begun', reads⟩ := stays depth (begun ++ [glyph .plain ' ']) inner enough
  have joined : afterSpace (.running begun inner true) ' ' (some kind) =
      ([], .running (begun ++ [glyph .plain ' ']) inner true) := by
    rcases solid with rfl | rfl
    · simp [afterSpace]
    · simp [afterSpace]
  have reads' : cutting.Reads text depth
      (afterSpace (.running begun inner true) ' ' (some kind)).2 []
      (.running begun' inner true) := by
    rw [joined]
    exact reads
  have read := Reads.space next reads'
  rw [joined] at read
  exact ⟨begun', read⟩

/-- Inside brackets every blank belongs to the run. -/
theorem space_inside (cutting : Segmentation) : cutting.Stays 1 [' '] := by
  intro depth begun inner isOpen
  refine ⟨begun ++ [glyph .plain ' '], fun position rest => ?_⟩
  have joined (next : Option GlyphClass) :
      afterSpace (.running begun inner true) ' ' next =
        ([], .running (begun ++ [glyph .plain ' ']) inner true) := by
    rw [afterSpace, if_pos (by simp; omega)]
  rw [List.singleton_append, scan_of_space classOf_space, joined]
  rfl

theorem enclosed
    (pair : cutting.IsPair brackets)
    (stays : cutting.Stays 1 text) :
    cutting.Stays 0 (enclosedText brackets text) := by
  intro depth begun inner _
  obtain ⟨middle, reads⟩ := stays (depth + 1)
    (begun ++ [glyph (.ofDepth depth) brackets.opening]) (inner + 1)
    (Nat.le_add_left _ _)
  have reads' : cutting.Reads text (depth + 1)
      (afterOpening (.running begun inner true) brackets.opening depth) []
      (.running middle (inner + 1) true) := reads
  exact reads'.enclosed_running pair

end Stays

/-! ## Texts that settle -/

namespace Settles

theorem of_joins (joins : cutting.Joins text) : cutting.Settles text := by
  intro depth state
  obtain ⟨begun, reads⟩ := joins depth state
  exact ⟨[], begun, state.bound, reads, nofun⟩

theorem of_binds (binds : cutting.Binds text) : cutting.Settles text := by
  intro depth state
  obtain ⟨begun, reads⟩ := binds depth state
  exact ⟨[], begun, true, reads, nofun⟩

theorem append
    (settles : cutting.Settles text)
    (settles' : cutting.Settles text') : cutting.Settles (text ++ text') := by
  intro depth state
  obtain ⟨items, middle, met, reads, values⟩ := settles depth state
  obtain ⟨items', begun, bound, reads', values'⟩ :=
    settles' depth (.running middle state.inner met)
  refine ⟨items ++ items', begun, bound, reads.append reads', ?_⟩
  exact List.forall_mem_append.mpr ⟨values, values'⟩

theorem enclosed
    (pair : cutting.IsPair brackets)
    (settles : cutting.Settles text) :
    cutting.Settles (enclosedText brackets text) := by
  intro depth state
  obtain ⟨items, begun, bound, reads, values⟩ :=
    settles (depth + 1) (afterOpening state brackets.opening depth)
  obtain ⟨begun', around⟩ := reads.enclosed_running pair
  rw [inner_afterOpening] at around
  exact ⟨items, begun', bound, around, values⟩

theorem operator
    (operates : cutting.classOf c = .operator)
    (settles : cutting.Settles text) : cutting.Settles (c :: text) := by
  intro depth state
  obtain ⟨innerEq, values⟩ := afterOperator_settles cutting state c
  obtain ⟨items, begun, bound, reads, values'⟩ :=
    settles depth (cutting.afterOperator state c).2
  rw [innerEq] at reads
  refine ⟨_, begun, bound,
    (Reads.operator operates depth state).append reads, ?_⟩
  exact List.forall_mem_append.mpr ⟨values, values'⟩

theorem space
    (begins : cutting.Begins text operated)
    (settles : cutting.Settles text) : cutting.Settles (' ' :: text) := by
  intro depth state
  obtain ⟨kind, next, -⟩ := begins.nextSolid?
  obtain ⟨innerEq, values⟩ := afterSpace_settles state (some kind)
  obtain ⟨items, begun, bound, reads, values'⟩ :=
    settles depth (afterSpace state ' ' (some kind)).2
  rw [innerEq] at reads
  refine ⟨_, begun, bound, Reads.space next reads, ?_⟩
  exact List.forall_mem_append.mpr ⟨values, values'⟩

end Settles
end Segmentation
end SymbolicLogic
