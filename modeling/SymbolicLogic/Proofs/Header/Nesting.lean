import SymbolicLogic.Proofs.Header.Scanning

/-!
# Brackets of a text

Whether a character opens or closes is told by the pairs of the notation alone. A
character that opens some pair is an opening bracket, even if it closes another one,
and pairs are not told apart. A text is cut into items unless a closing bracket stands
where all brackets opened before it have been closed. The first bracket of this kind
is the one that is reported.
-/

namespace SymbolicLogic
namespace Segmentation

/-- The character opens some pair. -/
def IsOpening (cutting : Segmentation) (c : Char) : Prop :=
  Text.isBlank c = false ∧ ∃ pair ∈ cutting.brackets, pair.opening = c

/-- The character closes some pair, and opens none. -/
def IsClosing (cutting : Segmentation) (c : Char) : Prop :=
  Text.isBlank c = false ∧ (∀ pair ∈ cutting.brackets, pair.opening ≠ c) ∧
    ∃ pair ∈ cutting.brackets, pair.closing = c

instance (cutting : Segmentation) (c : Char) : Decidable (cutting.IsOpening c) :=
  inferInstanceAs (Decidable (_ ∧ _))

instance (cutting : Segmentation) (c : Char) : Decidable (cutting.IsClosing c) :=
  inferInstanceAs (Decidable (_ ∧ _ ∧ _))

/-- The number of opening brackets. -/
def openings (cutting : Segmentation) (text : List Char) : Nat :=
  text.countP (cutting.IsOpening ·)

/-- The number of closing brackets. -/
def closings (cutting : Segmentation) (text : List Char) : Nat :=
  text.countP (cutting.IsClosing ·)

/-- With `depth` brackets open in front of the text, the closing bracket at the place
has nothing to close. -/
def IsUnmatched
    (cutting : Segmentation)
    (depth : Nat)
    (text : List Char)
    (place : Nat) : Prop :=
  ∃ c, text[place]? = some c ∧ cutting.IsClosing c ∧
    depth + cutting.openings (text.take place) ≤
      cutting.closings (text.take place)

variable {cutting : Segmentation} {c : Char} {text rest : List Char}
  {depth place position : Nat} {state : State}

theorem classOf_eq_opening_iff :
    cutting.classOf c = .opening ↔ cutting.IsOpening c := by
  unfold classOf IsOpening
  split
  · next blank => simp [blank]
  · next solid =>
      split
      · next opens => simpa [solid] using opens
      · next opens =>
          simp only [List.any_eq_true, decide_eq_true_eq] at opens
          refine iff_of_false ?_ fun opening => opens opening.2
          split
          · exact nofun
          · split <;> exact nofun

theorem classOf_eq_closing_iff :
    cutting.classOf c = .closing ↔ cutting.IsClosing c := by
  unfold classOf IsClosing
  split
  · next blank => simp [blank]
  · next solid =>
      split
      · next opens =>
          simp only [List.any_eq_true, decide_eq_true_eq] at opens
          obtain ⟨pair, member, opening⟩ := opens
          exact iff_of_false nofun fun closes => closes.2.1 pair member opening
      · next opens =>
          simp only [List.any_eq_true, decide_eq_true_eq] at opens
          split
          · next closes =>
              exact iff_of_true rfl ⟨by simpa using solid,
                fun pair member opening => opens ⟨pair, member, opening⟩,
                by simpa using closes⟩
          · next closes =>
              simp only [List.any_eq_true, decide_eq_true_eq] at closes
              refine iff_of_false ?_ fun closing => closes closing.2.2
              split <;> exact nofun

/-- No closing bracket opens. -/
theorem IsClosing.not_isOpening
    (closes : cutting.IsClosing c) : ¬cutting.IsOpening c :=
  fun ⟨_, pair, member, opening⟩ => closes.2.1 pair member opening

@[simp] theorem openings_nil : cutting.openings [] = 0 := rfl

@[simp] theorem closings_nil : cutting.closings [] = 0 := rfl

@[simp] theorem openings_append (text rest : List Char) :
    cutting.openings (text ++ rest) =
      cutting.openings text + cutting.openings rest :=
  List.countP_append

@[simp] theorem closings_append (text rest : List Char) :
    cutting.closings (text ++ rest) =
      cutting.closings text + cutting.closings rest :=
  List.countP_append

theorem openings_cons (c : Char) (rest : List Char) :
    cutting.openings (c :: rest) = cutting.openings [c] + cutting.openings rest :=
  openings_append [c] rest

theorem closings_cons (c : Char) (rest : List Char) :
    cutting.closings (c :: rest) = cutting.closings [c] + cutting.closings rest :=
  closings_append [c] rest

theorem openings_singleton :
    cutting.openings [c] = if cutting.IsOpening c then 1 else 0 := by
  simp [openings]

theorem closings_singleton :
    cutting.closings [c] = if cutting.IsClosing c then 1 else 0 := by
  simp [closings]

theorem openings_of_isOpening (opens : cutting.IsOpening c) :
    cutting.openings [c] = 1 := by
  rw [openings_singleton, if_pos opens]

theorem closings_of_isOpening (opens : cutting.IsOpening c) :
    cutting.closings [c] = 0 := by
  rw [closings_singleton, if_neg fun closes => closes.not_isOpening opens]

theorem openings_of_isClosing (closes : cutting.IsClosing c) :
    cutting.openings [c] = 0 := by
  rw [openings_singleton, if_neg closes.not_isOpening]

theorem closings_of_isClosing (closes : cutting.IsClosing c) :
    cutting.closings [c] = 1 := by
  rw [closings_singleton, if_pos closes]

/-- The number of brackets that are open after a character, if `depth` are open in
front of it. -/
def depthAfter (cutting : Segmentation) (depth : Nat) (c : Char) : Nat :=
  match cutting.classOf c with
  | .opening => depth + 1
  | .closing => depth - 1
  | _ => depth

/-- The items that a character makes, and the state after it. -/
def step
    (cutting : Segmentation)
    (depth : Nat)
    (state : State)
    (c : Char)
    (rest : List Char) : List HeaderItem × State :=
  match cutting.classOf c with
  | .opening => ([], afterOpening state c depth)
  | .closing => afterClosing state c (depth - 1)
  | .operator => cutting.afterOperator state c
  | .relation => ([], cutting.afterRelation state c)
  | .space => afterSpace state c (cutting.nextSolid? rest)

theorem depthAfter_add_closings (matched : cutting.IsClosing c -> 0 < depth) :
    cutting.depthAfter depth c + cutting.closings [c] =
      depth + cutting.openings [c] := by
  simp only [openings_singleton, closings_singleton, depthAfter,
    ← classOf_eq_opening_iff, ← classOf_eq_closing_iff] at matched ⊢
  cases kind : cutting.classOf c with
  | closing =>
      have isOpen := matched kind
      simp
      omega
  | opening | operator | relation | space => simp

/-- A character is read by one step, unless it is a closing bracket with nothing to
close. -/
theorem scan_cons_eq_step
    (matched : cutting.IsClosing c -> 0 < depth)
    (position : Nat)
    (rest : List Char) :
    cutting.scan position depth state (c :: rest) =
      (cutting.scan (position + 1) (cutting.depthAfter depth c)
        (cutting.step depth state c rest).2 rest).map
        ((cutting.step depth state c rest).1 ++ ·) := by
  rw [← classOf_eq_closing_iff] at matched
  rw [depthAfter, step]
  cases kind : cutting.classOf c with
  | opening => rw [scan_of_opening kind, map_nil_append]
  | closing =>
      obtain ⟨outer, rfl⟩ := Nat.exists_eq_add_of_lt (matched kind)
      rw [Nat.zero_add, scan_of_closing kind]
      rfl
  | operator => rw [scan_of_operator kind]
  | relation => rw [scan_of_relation kind, map_nil_append]
  | space => rw [scan_of_space kind]

theorem scan_cons_of_isClosing
    (closes : cutting.IsClosing c)
    (position : Nat)
    (rest : List Char) :
    cutting.scan position 0 state (c :: rest) = .error position := by
  rw [scan.eq_def]
  simp only [classOf_eq_closing_iff.mpr closes]

theorem isUnmatched_cons_zero :
    cutting.IsUnmatched depth (c :: rest) 0 ↔ cutting.IsClosing c ∧ depth = 0 := by
  simp [IsUnmatched]

/-- Later brackets are matched, or not, with those that are open after the first
character. -/
theorem isUnmatched_cons_succ (matched : cutting.IsClosing c -> 0 < depth) :
    cutting.IsUnmatched depth (c :: rest) (place + 1) ↔
      cutting.IsUnmatched (cutting.depthAfter depth c) rest place := by
  have balance := depthAfter_add_closings matched
  simp only [IsUnmatched, List.getElem?_cons_succ, List.take_succ_cons]
  rw [openings_cons, closings_cons]
  refine exists_congr fun closing => and_congr_right fun _ => and_congr_right
    fun _ => ?_
  omega

theorem map_eq_error_iff
    {result : Except Nat (List HeaderItem)}
    {f : List HeaderItem -> List HeaderItem}
    {failed : Nat} : result.map f = .error failed ↔ result = .error failed := by
  cases result <;> simp [Except.map]

/-- Cutting a text fails at the first closing bracket that has nothing to close. -/
theorem scan_eq_error_iff {failed : Nat} :
    cutting.scan position depth state text = .error failed ↔
      ∃ place, failed = position + place ∧ cutting.IsUnmatched depth text place ∧
        ∀ earlier < place, ¬cutting.IsUnmatched depth text earlier := by
  induction text generalizing position depth state with
  | nil => simp [scan, IsUnmatched]
  | cons c rest inductionHypothesis =>
      by_cases matched : cutting.IsClosing c -> 0 < depth
      · have notFirst : ¬cutting.IsUnmatched depth (c :: rest) 0 := by
          rw [isUnmatched_cons_zero]
          exact fun both => Nat.ne_of_gt (matched both.1) both.2
        rw [scan_cons_eq_step matched, map_eq_error_iff, inductionHypothesis]
        constructor
        · rintro ⟨place, rfl, unmatched, first⟩
          refine ⟨place + 1, by omega, (isUnmatched_cons_succ matched).mpr unmatched,
            fun earlier before => ?_⟩
          cases earlier with
          | zero => exact notFirst
          | succ earlier =>
              rw [isUnmatched_cons_succ matched]
              exact first earlier (Nat.lt_of_succ_lt_succ before)
        · rintro ⟨place, rfl, unmatched, first⟩
          cases place with
          | zero => exact absurd unmatched notFirst
          | succ place =>
              refine ⟨place, by omega, (isUnmatched_cons_succ matched).mp unmatched,
                fun earlier before => ?_⟩
              rw [← isUnmatched_cons_succ matched]
              exact first (earlier + 1) (Nat.succ_lt_succ before)
      · obtain ⟨closes, none⟩ := Classical.not_imp.mp matched
        obtain rfl : depth = 0 := Nat.eq_zero_of_not_pos none
        have unmatched : cutting.IsUnmatched 0 (c :: rest) 0 :=
          isUnmatched_cons_zero.mpr ⟨closes, rfl⟩
        rw [scan_cons_of_isClosing closes, Except.error.injEq]
        constructor
        · rintro rfl
          exact ⟨0, rfl, unmatched, fun earlier before => by cases before⟩
        · rintro ⟨place, rfl, -, first⟩
          cases place with
          | zero => rfl
          | succ place => exact absurd unmatched (first 0 (Nat.succ_pos _))

theorem not_isUnmatched_of_scan
    {items : List HeaderItem}
    (scanned : cutting.scan position depth state text = .ok items)
    (place : Nat) : ¬cutting.IsUnmatched depth text place := by
  induction place using Nat.strongRecOn with
  | ind place inductionHypothesis =>
      intro unmatched
      have failed : cutting.scan position depth state text =
          .error (position + place) :=
        scan_eq_error_iff.mpr ⟨place, rfl, unmatched, inductionHypothesis⟩
      rw [scanned] at failed
      cases failed

/-- If no bracket is unmatched, then neither is the first one, nor is any of those
after it. -/
theorem matched_cons (none : ∀ place, ¬cutting.IsUnmatched depth (c :: rest) place) :
    (cutting.IsClosing c -> 0 < depth) ∧
      ∀ place, ¬cutting.IsUnmatched (cutting.depthAfter depth c) rest place := by
  have matched : cutting.IsClosing c -> 0 < depth := fun closes =>
    Nat.pos_of_ne_zero fun empty => none 0 (isUnmatched_cons_zero.mpr ⟨closes, empty⟩)
  exact ⟨matched, fun place unmatched =>
    none (place + 1) ((isUnmatched_cons_succ matched).mpr unmatched)⟩

end Segmentation
end SymbolicLogic
