import SymbolicLogic.Proofs.Truth.Columns
import SymbolicLogic.Truth.Tabulation

/-!
# Vectors that grow side by side stay in step

A tabulation has the vectors of the table that is built column by column. Each step keeps
the vectors those of a list of columns: what a basic formula adds to them is one column,
and what a main formula adds is its divider with the columns below its header, once the
values have been written over the blanks. So no entry is written where there is none, and
whatever holds of the columns of a table is true of the vectors.
-/

namespace SymbolicLogic

/-- The entry behind the first ones is at the place that is their number. -/
theorem overwrite?_append {α : Type} (front rest : List α) (old new : α) :
    overwrite? (front ++ old :: rest) front.length new =
      some (front ++ new :: rest) := by
  have inside : front.length < (front ++ old :: rest).length := by
    rw [List.length_append, List.length_cons]
    omega
  rw [overwrite?, if_pos inside, List.set_append_right _ _ (Nat.le_refl _), Nat.sub_self,
    List.set_cons_zero]

/-- The first item is at place zero, and those behind it one place further on. -/
theorem HeaderItem.valuePositions_cons (item : HeaderItem) (items : List HeaderItem) :
    valuePositions (item :: items) =
      (if item.holdsValues then [0] else []) ++
        (valuePositions items).map (1 + ·) := by
  have later : (valuePositions items).map (1 + ·) =
      (items.zipIdx 1).filterMap fun entry =>
        if entry.1.holdsValues then some entry.2 else none := by
    have shifted : items.zipIdx 1 = items.zipIdx.map fun entry => (entry.1, 1 + entry.2) :=
      List.zipIdx_eq_map_add
    rw [valuePositions, List.map_filterMap, shifted, List.filterMap_map]
    congr 1
    funext entry
    by_cases holds : entry.1.holdsValues = true
    · simp [holds]
    · simp [holds]
  rw [later, valuePositions, List.zipIdx_cons]
  by_cases holds : item.holdsValues = true
  · simp [holds]
  · simp [holds]

/-- Behind a column, the places of the other value items are counted from the next one. -/
theorem HeaderItem.map_valuePositions_cons
    {α : Type}
    (item : HeaderItem)
    (items : List HeaderItem)
    (front : List α)
    (next : α) :
    (valuePositions (item :: items)).map (front.length + ·) =
      (if item.holdsValues then [front.length] else []) ++
        (valuePositions items).map ((front ++ [next]).length + ·) := by
  rw [valuePositions_cons, List.map_append, List.map_map]
  congr 1
  · by_cases holds : item.holdsValues = true
    · simp [holds]
    · simp [holds]
  · apply List.map_congr_left
    intro position _
    simp only [Function.comp_apply, List.length_append, List.length_singleton]
    omega

namespace Column

/-- Nothing stands below an item that is to have no values. -/
theorem place_of_blank
    {item : HeaderItem}
    {items : List HeaderItem}
    {entries : List (ColumnRole × List Bool)}
    (isBlank : item.holdsValues = false) :
    place (item :: items) entries = blank item :: place items entries := by
  cases item with
  | value runs => cases isBlank
  | blank runs | divider => rfl

/-- The first entry stands below the first item that is to have values. -/
theorem place_of_value
    {item : HeaderItem}
    {items : List HeaderItem}
    {entry : ColumnRole × List Bool}
    {entries : List (ColumnRole × List Bool)}
    (holds : item.holdsValues = true) :
    place (item :: items) (entry :: entries) =
      ⟨item, entry.1, some entry.2⟩ :: place items entries := by
  cases item with
  | value runs => rfl
  | blank runs | divider => cases holds

end Column

namespace Draft

variable {values : List (List Bool)} {items : List HeaderItem} {nodes : List Nat}

/-- The roles and values of nodes. -/
def entries (root : Nat) (values : List (List Bool)) (nodes : List Nat) :
    List (ColumnRole × List Bool) :=
  nodes.map fun node =>
    (if node = root then .main else .part, values[node]?.getD [])

/-- The first node gives the first entry, once it has been computed. -/
theorem entries_cons
    {node : Nat}
    (isNode : node < values.length)
    (root : Nat)
    (nodes : List Nat) :
    entries root values (node :: nodes) =
      (if node = root then .main else .part, values[node]) ::
        entries root values nodes := by
  rw [entries, entries, List.map_cons, List.getElem?_eq_getElem isNode, Option.getD_some]

/-- The vectors of columns. -/
def ofColumns (columns : List Column) : Draft where
  header := columns.map Column.item
  key := columns.map Column.values
  basicColumns := columns.map fun column => column.role = .basic
  mainColumns := Column.mainPositions 0 columns

/-- The values of a node are written over the first blank. -/
theorem fill?_blank
    {node : Nat}
    (isNode : node < values.length)
    (root : Nat)
    (header : List HeaderItem)
    (front blanks : List (Option (List Bool)))
    (basicColumns : List Bool)
    (mainColumns : List Nat) :
    fill? root values ⟨header, front ++ none :: blanks, basicColumns, mainColumns⟩
        (node, front.length) =
      some ⟨header, front ++ some values[node] :: blanks, basicColumns,
        if node = root then mainColumns ++ [front.length] else mainColumns⟩ := by
  have found : values[node]? = some values[node] := List.getElem?_eq_getElem isNode
  rw [fill?, found, Option.bind_eq_bind, Option.bind_some, overwrite?_append]
  rfl

/-- The values of nodes are written over blanks, one after the other. Then the columns of
the nodes stand below the value items, and the rest is still blank. -/
theorem foldlM_fill?
    (root : Nat)
    (computed : ∀ node ∈ nodes, node < values.length)
    (enough : (items.filter HeaderItem.holdsValues).length = nodes.length)
    (header : List HeaderItem)
    (front : List (Option (List Bool)))
    (basicColumns : List Bool)
    (mainColumns : List Nat) :
    (nodes.zip ((HeaderItem.valuePositions items).map (front.length + ·))).foldlM
        (fill? root values)
        ⟨header, front ++ List.replicate items.length none, basicColumns, mainColumns⟩ =
      some ⟨header,
        front ++ (Column.place items (entries root values nodes)).map Column.values,
        basicColumns,
        mainColumns ++ Column.mainPositions front.length
          (Column.place items (entries root values nodes))⟩ := by
  induction items generalizing nodes front mainColumns with
  | nil =>
      obtain rfl : nodes = [] := List.length_eq_zero_iff.mp enough.symm
      simp [HeaderItem.valuePositions, Column.place, Column.mainPositions]
  | cons item items inductionHypothesis =>
      have regroup (next : Option (List Bool)) (rest : List (Option (List Bool))) :
          front ++ next :: rest = (front ++ [next]) ++ rest := by
        rw [List.append_assoc, List.singleton_append]
      have lengthEq (next : Option (List Bool)) :
          (front ++ [next]).length = front.length + 1 := by
        rw [List.length_append, List.length_singleton]
      rw [List.length_cons, List.replicate_succ]
      cases holds : item.holdsValues with
      | false =>
          have others : (items.filter HeaderItem.holdsValues).length = nodes.length := by
            rwa [List.filter_cons_of_neg (by simp [holds])] at enough
          rw [HeaderItem.map_valuePositions_cons _ _ _ none, holds,
            if_neg Bool.false_ne_true, List.nil_append, regroup,
            inductionHypothesis computed others, lengthEq,
            Column.place_of_blank holds, List.map_cons, Column.mainPositions_cons]
          simp [Column.blank]
      | true =>
          rw [List.filter_cons_of_pos holds, List.length_cons] at enough
          obtain ⟨node, nodes, rfl⟩ := List.exists_of_length_succ nodes enough.symm
          obtain ⟨isNode, others⟩ := List.forall_mem_cons.mp computed
          rw [HeaderItem.map_valuePositions_cons _ _ _ (some values[node]), if_pos holds,
            List.singleton_append, List.zip_cons_cons, List.foldlM_cons,
            fill?_blank isNode, regroup, Option.bind_eq_bind, Option.bind_some,
            inductionHypothesis others (Nat.succ.inj enough), lengthEq,
            entries_cons isNode, Column.place_of_value holds, List.map_cons,
            Column.mainPositions_cons]
          by_cases isRoot : node = root
          · simp [isRoot]
          · simp [isRoot]

/-- The vectors of columns that are put together are those of the parts, one behind the
other. -/
theorem ofColumns_append (columns own : List Column) :
    ofColumns (columns ++ own) =
      { header := (ofColumns columns).header ++ own.map Column.item
        key := (ofColumns columns).key ++ own.map Column.values
        basicColumns := (ofColumns columns).basicColumns ++
          own.map fun column => decide (column.role = .basic)
        mainColumns := (ofColumns columns).mainColumns ++
          Column.mainPositions columns.length own } := by
  simp [ofColumns, Column.mainPositions_append]

/-- A column that is no main column is added to all vectors. -/
theorem push_ofColumns
    (columns : List Column)
    (column : Column)
    (notMain : column.role ≠ .main) :
    (ofColumns columns).push column.item column.values (column.role = .basic) =
      ofColumns (columns ++ [column]) := by
  rw [ofColumns_append, push, Column.mainPositions_cons, if_neg notMain]
  simp [Column.mainPositions]

/-- Basic formulas add their columns, with their places counted on. -/
theorem foldl_pushBasic
    (interpretations : List Interpretation)
    (declared : List (Formula × Nat))
    (columns : List Column) :
    declared.foldl (pushBasic interpretations) (ofColumns columns) =
      ofColumns (columns ++ declared.map fun declared =>
        Column.basic (Expression.formula declared.1).runs
          (interpretations.map fun interpretation =>
            interpretation.value declared.2)) := by
  induction declared generalizing columns with
  | nil => rw [List.foldl_nil, List.map_nil, List.append_nil]
  | cons first rest inductionHypothesis =>
      have added : pushBasic interpretations (ofColumns columns) first =
          ofColumns (columns ++ [Column.basic (Expression.formula first.1).runs
            (interpretations.map fun interpretation => interpretation.value first.2)]) :=
        push_ofColumns columns (Column.basic _ _) (fun isMain => by cases isMain)
      rw [List.foldl_cons, added, inductionHypothesis, List.map_cons, List.append_assoc,
        List.singleton_append]

/-- The columns of the basic formulas are pushed first. -/
theorem ofBasics_eq (basics : List Formula) (interpretations : List Interpretation) :
    ofBasics basics interpretations =
      ofColumns (Setup.basicColumns basics interpretations) :=
  foldl_pushBasic interpretations basics.zipIdx []

/-- Every displayed node has been computed. -/
theorem lt_length_evaluate_of_mem_displayed
    {root node : Nat}
    {formula : Formula}
    {basics : List Formula}
    {decomposition : Decomposition}
    (found : Decomposition.of formula basics = .ok (root, decomposition))
    (interpretations : List Interpretation)
    (member : node ∈ decomposition.displayed) :
    node < (decomposition.evaluate interpretations).length := by
  have extension := Decomposition.extends_of found
  obtain ⟨part, -, inTable⟩ := exists_of_mem_of_forall₂ extension.parts.flip member
  obtain ⟨column, computed, -⟩ :=
    Decomposition.settled_evaluate extension.linked interpretations node inTable
  exact (List.getElem?_eq_some_iff.mp computed).1

/-- The columns of nodes are added behind others: as blanks first, which their values are
written over. -/
theorem foldlM_fill?_extend
    (root : Nat)
    (computed : ∀ node ∈ nodes, node < values.length)
    (enough : (items.filter HeaderItem.holdsValues).length = nodes.length)
    (columns : List Column) :
    (nodes.zip ((HeaderItem.valuePositions items).map (columns.length + ·))).foldlM
        (fill? root values) ((ofColumns columns).extend items) =
      some (ofColumns (columns ++ Column.place items (entries root values nodes))) := by
  have lengthEq : (ofColumns columns).key.length = columns.length := List.length_map _
  have parts : ∀ entry ∈ entries root values nodes, entry.1 ≠ .basic := by
    intro entry member
    obtain ⟨node, -, rfl⟩ := List.mem_map.mp member
    dsimp only
    split <;> decide
  have flags : (Column.place items (entries root values nodes)).map
      (fun column => decide (column.role = .basic)) =
      List.replicate items.length false := by
    refine List.eq_replicate_iff.mpr ⟨?_, ?_⟩
    · have whole := congrArg List.length
        (Column.map_item_place items (entries root values nodes))
      rw [List.length_map] at whole
      rw [List.length_map, whole]
    · intro flag member
      obtain ⟨column, placed, rfl⟩ := List.mem_map.mp member
      exact decide_eq_false (Column.role_ne_basic_of_mem_place parts placed)
  have filled := foldlM_fill? root computed enough
    ((ofColumns columns).header ++ items) (ofColumns columns).key
    ((ofColumns columns).basicColumns ++ List.replicate items.length false)
    (ofColumns columns).mainColumns
  rw [lengthEq] at filled
  rw [extend, filled, ofColumns_append, Column.map_item_place, flags]

section

variable (language : Language) (basics : List Formula)
  (interpretations : List Interpretation)

/-- A main formula adds a divider and the columns that are laid out for it, or fails with
the error of the layout. -/
theorem run_addMain (columns : List Column) (formula : Formula) :
    (addMain language basics interpretations (ofColumns columns) formula).run =
      some ((Setup.layOut language basics interpretations (columns.length + 1) formula).map
        fun own => ofColumns (columns ++ .blank .divider :: own)) := by
  have opened : (ofColumns columns).push .divider none false =
      ofColumns (columns ++ [.blank .divider]) :=
    push_ofColumns columns (.blank .divider) (by decide)
  have lengthEq : (columns ++ [Column.blank .divider]).length = columns.length + 1 := by
    rw [List.length_append, List.length_singleton]
  have base : (ofColumns (columns ++ [.blank .divider])).header.length =
      columns.length + 1 :=
    (List.length_map _).trans lengthEq
  unfold addMain Setup.layOut
  simp only [opened, base]
  cases cut : language.segmentation.items formula.text with
  | error error => rfl
  | ok items =>
      dsimp only
      cases found : Decomposition.of formula basics with
      | error undeclared =>
          dsimp only
          rw [getD_bind_map_add]
          rfl
      | ok node =>
          obtain ⟨root, decomposition⟩ := node
          dsimp only
          rw [List.length_map]
          by_cases enough : decomposition.displayed.length =
              (HeaderItem.valuePositions items).length
          · have filled := foldlM_fill?_extend root
              (fun node => lt_length_evaluate_of_mem_displayed found interpretations)
              ((Setup.length_valuePositions items).symm.trans enough.symm)
              (columns ++ [.blank .divider])
            rw [lengthEq] at filled
            rw [if_pos enough, if_pos enough, filled, List.append_assoc,
              List.singleton_append]
            rfl
          · rw [if_neg enough, if_neg enough]
            rfl

/-- Main formulas add the columns that are laid out for them, one after the other. -/
theorem run_foldlM_addMain (columns : List Column) (formulas : List Formula) :
    (formulas.foldlM (addMain language basics interpretations) (ofColumns columns)).run =
      some ((Setup.layOutAll language basics interpretations columns.length formulas).map
        fun others => ofColumns (columns ++ others)) := by
  induction formulas generalizing columns with
  | nil =>
      rw [Setup.layOutAll, Except.map, List.append_nil]
      rfl
  | cons formula formulas inductionHypothesis =>
      rw [List.foldlM_cons, ExceptT.run_bind, run_addMain, Setup.layOutAll]
      cases Setup.layOut language basics interpretations (columns.length + 1) formula with
      | error error => rfl
      | ok own =>
          have lengthEq : (columns ++ .blank .divider :: own).length =
              columns.length + 1 + own.length := by
            rw [List.length_append, List.length_cons]
            omega
          have others := inductionHypothesis (columns ++ .blank .divider :: own)
          rw [lengthEq] at others
          refine others.trans ?_
          dsimp only [bind, Except.bind]
          cases Setup.layOutAll language basics interpretations
              (columns.length + 1 + own.length) formulas with
          | error error => rfl
          | ok others =>
              dsimp only [Except.map, pure, Except.pure]
              rw [List.append_assoc]

end

/-- Marks are set at the places of the main columns, one after the other. -/
theorem foldlM_overwrite?_mainPositions (columns : List Column) (front : List Bool) :
    (Column.mainPositions front.length columns).foldlM
        (fun marks column => overwrite? marks column true)
        (front ++ List.replicate columns.length false) =
      some (front ++ columns.map fun column => decide (column.role = .main)) := by
  induction columns generalizing front with
  | nil => rfl
  | cons column columns inductionHypothesis =>
      have others (mark : Bool) := inductionHypothesis (front ++ [mark])
      simp only [List.length_append, List.length_singleton, List.append_assoc,
        List.singleton_append] at others
      rw [Column.mainPositions_cons, List.length_cons, List.replicate_succ, List.map_cons]
      by_cases isMain : column.role = .main
      · rw [if_pos isMain, List.singleton_append, List.foldlM_cons, overwrite?_append,
          Option.bind_eq_bind, Option.bind_some, others true, decide_eq_true isMain]
      · rw [if_neg isMain, List.nil_append, others false, decide_eq_false isMain]

/-- The highlighted columns are the main columns. -/
theorem highlight?_ofColumns (columns : List Column) :
    (ofColumns columns).highlight? =
      some (columns.map fun column => decide (column.role = .main)) := by
  have marked := foldlM_overwrite?_mainPositions columns []
  rw [highlight?, ofColumns, List.length_map]
  exact marked

end Draft

namespace Setup

/-- The vectors are those of the table that is built column by column. No place is
missing on the way, and an error is the same. -/
theorem run_tabulate (setup : Setup) (language : Language) :
    (setup.tabulate language).run = some ((setup.build language).map Table.tabulation) := by
  unfold tabulate build
  cases setup.readOperands language with
  | error error => rfl
  | ok operands =>
      obtain ⟨basics, mains⟩ := operands
      dsimp only [liftExcept, bind, Except.bind]
      let interpretations := Interpretation.all basics.length
      have added := Draft.run_foldlM_addMain language basics interpretations
        (basicColumns basics interpretations) mains
      rw [← Draft.ofBasics_eq] at added
      -- The vectors grow with the columns. Their marks are set when all columns are there.
      refine (congrArg (· >>= _) added).trans ?_
      cases layOutAll language basics interpretations
          (basicColumns basics interpretations).length mains with
      | error error => rfl
      | ok others =>
          have marked :=
            Draft.highlight?_ofColumns (basicColumns basics interpretations ++ others)
          exact congrArg (· >>= _) (congrArg (Option.map Except.ok) marked)

end Setup
end SymbolicLogic
