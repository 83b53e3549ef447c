import SymbolicLogic.Header.Scan

/-!
# What the scan does with a piece of text

A piece of text takes the scan from one state to another and makes some items,
whatever text follows. The scan of a whole text is put together from those of its
pieces. Only a blank looks ahead, to the next character that is none, so that a
blank is taken together with what follows it.
-/

namespace SymbolicLogic
namespace Segmentation

/-- With `depth` brackets open, the text takes the scan from one state to
another and makes the items. -/
def Reads
    (cutting : Segmentation)
    (text : List Char)
    (depth : Nat)
    (state : State)
    (items : List HeaderItem)
    (state' : State) : Prop :=
  ∀ position rest,
    cutting.scan position depth state (text ++ rest) =
      (cutting.scan (position + text.length) depth state' rest).map (items ++ ·)

/-- The brackets that are open inside the run at hand. -/
def State.inner : State -> Nat
  | .between | .opened _ => 0
  | .running _ inner _ => inner

/-- The run at hand has met a binder. -/
def State.bound : State -> Bool
  | .between | .opened _ => false
  | .running _ _ bound => bound

/-- No run has begun. -/
def State.IsStart : State -> Prop
  | .between | .opened _ => True
  | .running .. => False

variable {cutting : Segmentation} {text text' : List Char} {depth : Nat}
  {state middle state' : State} {items items' : List HeaderItem} {c : Char}

theorem map_append_map
    (result : Except Nat (List HeaderItem))
    (items items' : List HeaderItem) :
    (result.map (items' ++ ·)).map (items ++ ·) =
      result.map ((items ++ items') ++ ·) := by
  cases result with
  | error position => rfl
  | ok others =>
      simp only [Except.map]
      rw [List.append_assoc]

theorem map_nil_append (result : Except Nat (List HeaderItem)) :
    result.map ([] ++ ·) = result := by
  cases result <;> rfl

theorem scan_of_relation
    (relates : cutting.classOf c = .relation)
    (position : Nat)
    (rest : List Char) :
    cutting.scan position depth state (c :: rest) =
      cutting.scan (position + 1) depth (cutting.afterRelation state c)
        rest := by
  rw [scan.eq_def]
  simp only [relates]

theorem scan_of_operator
    (operates : cutting.classOf c = .operator)
    (position : Nat)
    (rest : List Char) :
    cutting.scan position depth state (c :: rest) =
      (cutting.scan (position + 1) depth (cutting.afterOperator state c).2
        rest).map ((cutting.afterOperator state c).1 ++ ·) := by
  rw [scan.eq_def]
  simp only [operates]

theorem scan_of_opening
    (opens : cutting.classOf c = .opening)
    (position : Nat)
    (rest : List Char) :
    cutting.scan position depth state (c :: rest) =
      cutting.scan (position + 1) (depth + 1) (afterOpening state c depth)
        rest := by
  rw [scan.eq_def]
  simp only [opens]

theorem scan_of_closing
    (closes : cutting.classOf c = .closing)
    (position : Nat)
    (rest : List Char) :
    cutting.scan position (depth + 1) state (c :: rest) =
      (cutting.scan (position + 1) depth (afterClosing state c depth).2
        rest).map ((afterClosing state c depth).1 ++ ·) := by
  rw [scan.eq_def]
  simp only [closes]

theorem scan_of_space
    (blank : cutting.classOf c = .space)
    (position : Nat)
    (rest : List Char) :
    cutting.scan position depth state (c :: rest) =
      (cutting.scan (position + 1) depth
        (afterSpace state c (cutting.nextSolid? rest)).2 rest).map
        ((afterSpace state c (cutting.nextSolid? rest)).1 ++ ·) := by
  rw [scan.eq_def]
  simp only [blank]

namespace Reads

theorem nil
    (cutting : Segmentation)
    (depth : Nat)
    (state : State) : cutting.Reads [] depth state [] state := by
  intro position rest
  rw [map_nil_append]
  rfl

/-- The text after a piece is read from the state that the piece leads to. -/
theorem append
    (reads : cutting.Reads text depth state items middle)
    (reads' : cutting.Reads text' depth middle items' state') :
    cutting.Reads (text ++ text') depth state (items ++ items') state' := by
  intro position rest
  rw [List.append_assoc, reads, reads', map_append_map, List.length_append,
    Nat.add_assoc]

theorem relation
    (relates : cutting.classOf c = .relation)
    (depth : Nat)
    (state : State) :
    cutting.Reads [c] depth state [] (cutting.afterRelation state c) := by
  intro position rest
  rw [List.singleton_append, scan_of_relation relates, map_nil_append]
  rfl

theorem operator
    (operates : cutting.classOf c = .operator)
    (depth : Nat)
    (state : State) :
    cutting.Reads [c] depth state (cutting.afterOperator state c).1
      (cutting.afterOperator state c).2 := by
  intro position rest
  rw [List.singleton_append, scan_of_operator operates]
  rfl

/-- Brackets around a text have one more bracket open inside. -/
theorem enclosed
    {opening closing : Char}
    (opens : cutting.classOf opening = .opening)
    (closes : cutting.classOf closing = .closing)
    (reads : cutting.Reads text (depth + 1) (afterOpening state opening depth)
      items middle) :
    cutting.Reads (opening :: (text ++ [closing])) depth state
      (items ++ (afterClosing middle closing depth).1)
      (afterClosing middle closing depth).2 := by
  intro position rest
  have length_eq : (opening :: (text ++ [closing])).length =
      1 + text.length + 1 := by
    rw [List.length_cons, List.length_append, List.length_singleton]
    omega
  rw [List.cons_append, List.append_assoc, List.singleton_append,
    scan_of_opening opens, reads, scan_of_closing closes, map_append_map,
    length_eq, Nat.add_assoc, Nat.add_assoc, Nat.add_assoc]

end Reads

/-- A blank is followed by a text that begins with a solid character. -/
theorem nextSolid?_append
    {kind : GlyphClass}
    (begins : ∃ rest, text = c :: rest)
    (class_eq : cutting.classOf c = kind)
    (solid : kind ≠ .space)
    (rest : List Char) : cutting.nextSolid? (text ++ rest) = some kind := by
  obtain ⟨tail, rfl⟩ := begins
  rw [nextSolid?, List.cons_append, List.find?_cons_of_pos]
  · rw [Option.map_some, class_eq]
  · rw [class_eq]
    exact bne_iff_ne.mpr solid

theorem classOf_space : cutting.classOf ' ' = .space := by
  rw [classOf, if_pos (by decide)]

theorem Reads.space
    {kind : GlyphClass}
    (next : ∀ rest, cutting.nextSolid? (text ++ rest) = some kind)
    (reads : cutting.Reads text depth (afterSpace state ' ' (some kind)).2 items
      state') :
    cutting.Reads (' ' :: text) depth state
      ((afterSpace state ' ' (some kind)).1 ++ items) state' := by
  intro position rest
  rw [List.cons_append, scan_of_space classOf_space, next, reads,
    map_append_map, List.length_cons, Nat.add_assoc, Nat.add_comm 1]

end Segmentation
end SymbolicLogic
