import Mathlib.Data.List.Forall2

/-!
# Items of lists

Items of two lists are often related place by place. Items of one list that meet a
condition are often given by their places, and these are ascending.
-/

namespace SymbolicLogic

section

variable {α : Type} {items : List α}

theorem exists_of_find?
    {holds : α -> Bool}
    (found : ∃ item ∈ items, holds item = true) :
    ∃ item, items.find? holds = some item :=
  Option.isSome_iff_exists.mp (List.find?_isSome.mpr found)

/-- What stands at a place stays there when more is appended. -/
theorem getElem?_append_of_eq_some
    {place : Nat}
    {item : α}
    (found : items[place]? = some item)
    (more : List α) : (items ++ more)[place]? = some item := by
  have inside : place < items.length := (List.getElem?_eq_some_iff.mp found).1
  rw [List.getElem?_append_left inside, found]

/-- A condition that is split in the same way for each side of a disjunction is split so
for the disjunction. -/
theorem or_iff_or
    {first second third first' second' third' left right : Prop}
    (one : first ↔ second ∧ left ∨ third ∧ right)
    (other : first' ↔ second' ∧ left ∨ third' ∧ right) :
    first ∨ first' ↔
      (second ∨ second') ∧ left ∨ (third ∨ third') ∧ right := by
  rw [one, other, or_and_right, or_and_right, or_or_or_comm]

/-- A condition that is split in the same way for each item is split so for some item. -/
theorem exists_mem_iff_or
    {first second third : α -> Prop}
    {left right : Prop}
    (each : ∀ item ∈ items,
      (first item ↔ second item ∧ left ∨ third item ∧ right)) :
    (∃ item ∈ items, first item) ↔
      (∃ item ∈ items, second item) ∧ left ∨
        (∃ item ∈ items, third item) ∧ right := by
  constructor
  · rintro ⟨item, member, holds⟩
    exact ((each item member).mp holds).imp
      (fun ⟨holds, side⟩ => ⟨⟨item, member, holds⟩, side⟩)
      fun ⟨holds, side⟩ => ⟨⟨item, member, holds⟩, side⟩
  · rintro (⟨⟨item, member, holds⟩, side⟩ | ⟨⟨item, member, holds⟩, side⟩)
    · exact ⟨item, member, (each item member).mpr (.inl ⟨holds, side⟩)⟩
    · exact ⟨item, member, (each item member).mpr (.inr ⟨holds, side⟩)⟩

end

section Related

variable {α β γ : Type} {relation : α -> β -> Prop} {items : List α} {results : List β}

/-- An item of the second list is related to one of the first. -/
theorem exists_of_mem_of_forall₂
    (pairs : List.Forall₂ relation items results)
    {result : β}
    (member : result ∈ results) :
    ∃ item ∈ items, relation item result := by
  induction pairs with
  | nil => cases member
  | cons first _ inductionHypothesis =>
      rcases List.mem_cons.mp member with rfl | member
      · exact ⟨_, List.mem_cons_self, first⟩
      · obtain ⟨item, placed, found⟩ := inductionHypothesis member
        exact ⟨item, List.mem_cons_of_mem _ placed, found⟩

/-- If items at one place have one of two properties each or neither, all items have
theirs in both lists or in neither. -/
theorem forall_mem_iff_of_forall₂
    {first : α -> Prop}
    {second : β -> Prop}
    (pairs : List.Forall₂ (fun item result => first item ↔ second result) items
      results) :
    (∀ item ∈ items, first item) ↔ ∀ result ∈ results, second result := by
  induction pairs with
  | nil => simp
  | cons pair _ inductionHypothesis => simp [pair, inductionHypothesis]

/-- Items at one place are related. -/
theorem exists_of_getElem?_of_forall₂
    (pairs : List.Forall₂ relation items results)
    {place : Nat}
    {item : α}
    (found : items[place]? = some item) :
    ∃ result, results[place]? = some result ∧ relation item result := by
  induction pairs generalizing place with
  | nil => cases found
  | cons first _ inductionHypothesis =>
      cases place with
      | zero =>
          cases found
          exact ⟨_, rfl, first⟩
      | succ place => exact inductionHypothesis found

/-- Items of the outer lists are related through those of the list between them. -/
theorem forall₂_comp
    {relation' : β -> γ -> Prop}
    {others : List γ}
    (pairs : List.Forall₂ relation items results)
    (pairs' : List.Forall₂ relation' results others) :
    List.Forall₂ (fun item other => ∃ middle, relation item middle ∧
      relation' middle other) items others := by
  induction pairs generalizing others with
  | nil =>
      cases pairs'
      exact .nil
  | cons related _ inductionHypothesis =>
      cases pairs' with
      | cons related' others =>
          exact .cons ⟨_, related, related'⟩ (inductionHypothesis others)

/-- The last item may be changed for one with the same relations. -/
theorem forall₂_change_last
    {last last' : β}
    (pairs : List.Forall₂ relation items (results ++ [last]))
    (change : ∀ item, relation item last -> relation item last') :
    List.Forall₂ relation items (results ++ [last']) := by
  induction results generalizing items with
  | nil =>
      obtain ⟨item, _, related, nothing, rfl⟩ := List.forall₂_cons_right_iff.mp pairs
      cases nothing
      exact .cons (change item related) .nil
  | cons result results inductionHypothesis =>
      obtain ⟨item, _, related, others, rfl⟩ := List.forall₂_cons_right_iff.mp pairs
      exact .cons related (inductionHypothesis others)

end Related

section Places

variable {α : Type} {pick : α × Nat -> Option Nat} {items : List α}
  {position base : Nat}

/-- Places that are picked by a condition are ascending. -/
theorem pairwise_filterMap_zipIdx
    (own : ∀ pair position, pick pair = some position -> position = pair.2)
    (items : List α)
    (base : Nat) : ((items.zipIdx base).filterMap pick).Pairwise (· < ·) := by
  rw [List.pairwise_filterMap]
  have ascending : ((items.zipIdx base).map Prod.snd).Pairwise (· < ·) := by
    rw [List.zipIdx_map_snd]
    exact List.pairwise_lt_range'
  refine (List.pairwise_map.mp ascending).imp fun {first second} before => ?_
  intro position picked position' picked'
  rw [own first position picked, own second position' picked']
  exact before

/-- A place is picked if the item there meets the condition. -/
theorem mem_filterMap_zipIdx_iff
    (own : ∀ pair position, pick pair = some position -> position = pair.2) :
    position ∈ items.zipIdx.filterMap pick ↔
      ∃ item, items[position]? = some item ∧
        pick (item, position) = some position := by
  rw [List.mem_filterMap]
  constructor
  · rintro ⟨⟨item, place⟩, member, picked⟩
    obtain rfl : position = place := own _ _ picked
    exact ⟨item, List.mem_zipIdx_iff_getElem?.mp member, picked⟩
  · rintro ⟨item, found, picked⟩
    exact ⟨(item, position), List.mem_zipIdx_iff_getElem?.mpr found, picked⟩

/-- Places can be counted on before or after one of them is looked up. -/
theorem getD_bind_map_add (base : Nat) (position : Option Nat) (places : List Nat) :
    (position.bind fun place => (places.map (base + ·))[place]?).getD base =
      base + (position.bind fun place => places[place]?).getD 0 := by
  cases position with
  | none => rfl
  | some place =>
      rw [Option.bind_some, Option.bind_some, List.getElem?_map]
      cases places[place]? with
      | none => rfl
      | some column => rfl

variable {condition : Prop} [Decidable condition] {own : Nat}

theorem own_of_ite
    (picked : (if condition then some own else none) = some position) :
    position = own := by
  split at picked
  · exact (Option.some.inj picked).symm
  · cases picked

theorem own_of_ite_not
    (picked : (if condition then none else some own) = some position) :
    position = own := by
  split at picked
  · cases picked
  · exact (Option.some.inj picked).symm

end Places
end SymbolicLogic
