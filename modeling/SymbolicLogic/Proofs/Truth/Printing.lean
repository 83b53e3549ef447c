import Mathlib.Algebra.BigOperators.Group.List.Lemmas
import Mathlib.Algebra.GroupWithZero.Nat
import SymbolicLogic.Proofs.Rendering.Blanks
import SymbolicLogic.Proofs.Truth.Consistency
import SymbolicLogic.Proofs.Truth.Layout
import SymbolicLogic.Truth.Print

/-!
# Printed tables are aligned

A table is printed as one line for its header and one for each row. Every line has a
field for each column, and the fields of a column have the width of its item, whatever
they show: the item, a truth value, nothing, or the bar of a divider. So they stand below
each other. Items have no blanks but spaces, so no field breaks a line.
-/

namespace SymbolicLogic

/-- The field shows the text between spaces, in the middle. If the spaces are odd in
number, there is one more behind the text. -/
def Text.IsCentred (text field : List Char) : Prop :=
  ∃ left right, left ≤ right ∧ right ≤ left + 1 ∧
    field = List.replicate left ' ' ++ text ++ List.replicate right ' '

theorem Text.IsCentred.isSpaced
    {text field : List Char}
    (centred : Text.IsCentred text field)
    (spaced : Text.IsSpaced text) : Text.IsSpaced field := by
  obtain ⟨left, right, -, -, rfl⟩ := centred
  intro c member blank
  simp only [List.mem_append, List.mem_replicate] at member
  rcases member with (⟨-, rfl⟩ | inText) | ⟨-, rfl⟩
  · rfl
  · exact spaced c inText blank
  · rfl

theorem Text.IsCentred.eq_space
    {field : List Char}
    (centred : Text.IsCentred [] field) : ∀ c ∈ field, c = ' ' := by
  obtain ⟨left, right, -, -, rfl⟩ := centred
  intro c member
  simp only [List.append_nil, List.mem_append, List.mem_replicate] at member
  exact member.elim And.right And.right

/-- Commands that are put in a row show one text after the other. -/
theorem Command.toList_visibleText_append (first second : List Command) :
    (visibleText (first ++ second)).toList =
      (visibleText first).toList ++ (visibleText second).toList := by
  rw [visibleText_append, String.toList_append]

theorem Command.toList_visibleText_flatMap
    {α : Type}
    (items : List α)
    (commands : α -> List Command) :
    (visibleText (items.flatMap commands)).toList =
      items.flatMap fun item => (visibleText (commands item)).toList := by
  induction items with
  | nil => rfl
  | cons item items inductionHypothesis =>
      rw [List.flatMap_cons, List.flatMap_cons, toList_visibleText_append,
        inductionHypothesis]

namespace HeaderItem

/-- The field in the column below an item shows the text, or the bar of a divider. -/
structure Frames (item : HeaderItem) (text field : List Char) : Prop where
  length_eq : field.length = item.width
  eq_bar : item = .divider -> field = ['|']
  isCentred : item ≠ .divider -> Text.IsCentred text field

variable {item : HeaderItem}

theorem isDivider_iff : item.isDivider = true ↔ item = .divider := by
  cases item <;> simp [isDivider]

theorem ne_divider_of_holdsValues (holds : item.holdsValues = true) : item ≠ .divider := by
  rintro rfl
  cases holds

/-- A frame adds no blanks but spaces. -/
theorem Frames.isSpaced
    {text field : List Char}
    (frames : item.Frames text field)
    (spaced : Text.IsSpaced text) : Text.IsSpaced field := by
  by_cases divider : item = .divider
  · rw [frames.eq_bar divider]
    intro c member blank
    rw [List.mem_singleton.mp member] at blank
    exact absurd blank (by decide)
  · exact (frames.isCentred divider).isSpaced spaced

/-- The padding fills the column, and parts as evenly as it can. -/
theorem isCentred_padded
    {text : String}
    {commands : List Command}
    (shown : Command.visibleText commands = text)
    (room : text.length ≤ item.width) :
    let field := (Command.visibleText (item.padded text.length commands)).toList
    field.length = item.width ∧ Text.IsCentred text.toList field := by
  have printed : (Command.visibleText (item.padded text.length commands)).toList =
      List.replicate ((item.width - text.length) / 2) ' ' ++ text.toList ++
        List.replicate (item.width - text.length - (item.width - text.length) / 2) ' ' := by
    simp [padded, alignment, Alignment.padding, Command.spaces, Command.visibleText, shown]
  refine ⟨?_, _, _, by omega, by omega, printed⟩
  rw [printed, List.length_append, List.length_append, List.length_replicate,
    List.length_replicate, String.length_toList]
  omega

/-- Header and rows are printed with the same frames. -/
theorem frames
    {text : String}
    {commands : List Command}
    (shown : Command.visibleText commands = text)
    (room : text.length ≤ item.width) :
    item.Frames text.toList
      (Command.visibleText
        (if item.isDivider then [.write "|"]
          else item.padded text.length commands)).toList := by
  by_cases divider : item = .divider
  · rw [if_pos (isDivider_iff.mpr divider)]
    subst divider
    exact ⟨rfl, fun _ => rfl, fun notDivider => absurd rfl notDivider⟩
  · rw [if_neg (mt isDivider_iff.mp divider)]
    obtain ⟨length_eq, centred⟩ := isCentred_padded shown room
    exact ⟨length_eq, fun isDivider => absurd isDivider divider, fun _ => centred⟩

end HeaderItem

namespace Column

variable {column : Column} {row : Nat}

/-- What stands in the header line. -/
def headerField (column : Column) : List Char :=
  (Command.visibleText column.headerCommands).toList

/-- What stands in the line of a row. -/
def cellField (row : Nat) (column : Column) : List Char :=
  (Command.visibleText (column.cellCommands row)).toList

/-- The header field of a column frames its item. -/
theorem frames_headerField (column : Column) :
    column.item.Frames column.item.text.toList column.headerField :=
  HeaderItem.frames (Command.visibleText_ofRuns _) (Nat.le_max_right _ _)

/-- A truth value takes one character, and a column that has some is wider. -/
theorem length_cellText_le (column : Column) (row : Nat) :
    (column.cellText row).length ≤ column.item.width := by
  have short : (column.cellText row).length ≤ 1 := by
    rw [cellText]
    split
    · next value _ => cases value <;> decide
    · decide
  have wide : 1 ≤ column.item.minWidth := by
    cases column.item <;> simp [HeaderItem.minWidth]
  exact short.trans (wide.trans (Nat.le_max_left _ _))

/-- The fields of a column frame its cells. -/
theorem frames_cellField (column : Column) (row : Nat) :
    column.item.Frames (column.cellText row).toList (column.cellField row) := by
  refine HeaderItem.frames ?_ (column.length_cellText_le row)
  split <;> simp [Command.visibleText]

theorem cellText_of_values
    {values : List Bool}
    (isColumn : column.values = some values)
    (inside : row < values.length) :
    column.cellText row = TruthValue.text values[row] := by
  rw [cellText, value?, isColumn, Option.bind_some, List.getElem?_eq_getElem inside]

theorem cellText_of_none (isBlank : column.values = none) (row : Nat) :
    column.cellText row = "" := by
  rw [cellText, value?, isBlank, Option.bind_none]

/-- Cells have no blanks at all. -/
theorem isSpaced_cellText (column : Column) (row : Nat) :
    Text.IsSpaced (column.cellText row).toList := by
  rw [cellText]
  split
  · next value _ =>
      intro c member blank
      cases value <;> simp [TruthValue.text] at member <;> subst member <;>
        exact absurd blank (by decide)
  · intro c member
    cases member

end Column

namespace Table

variable {table : Table} {position row : Nat} {column : Column} {item : HeaderItem}
  {line : List Char}

/-- The line of the header. -/
def headerLine (table : Table) : List Char :=
  table.columns.flatMap Column.headerField

/-- The line of a row. -/
def rowLine (table : Table) (row : Nat) : List Char :=
  table.columns.flatMap (Column.cellField row)

/-- The lines of the rows. -/
def body (table : Table) : List (List Char) :=
  (List.range table.rows).map table.rowLine

/-- Where the field of a column starts: behind those of the columns before it. -/
def start (table : Table) (position : Nat) : Nat :=
  ((table.header.take position).map HeaderItem.width).sum

/-- The part of a line that is in a column. -/
def field (table : Table) (position : Nat) (line : List Char) : List Char :=
  (line.take (table.start (position + 1))).drop (table.start position)

/-- A printed table has these lines. -/
theorem toList_text (table : Table) :
    table.text.toList =
      (table.headerLine :: table.body).flatMap (· ++ ['\n']) := by
  have lineEnd : (Command.visibleText [.write "\n"]).toList = ['\n'] := rfl
  simp only [text, commands, Command.toList_visibleText_append,
    Command.toList_visibleText_flatMap, lineEnd, body, List.flatMap_cons, List.flatMap_map]
  rfl

section

variable {fields : Column -> List Char}
  (fit : ∀ column ∈ table.columns, (fields column).length = column.item.width)
include fit

/-- The columns of a line start where they are expected. -/
theorem sum_take_length (position : Nat) :
    (((table.columns.map fields).map List.length).take position).sum =
      table.start position := by
  have widths : (table.columns.map fields).map List.length =
      table.header.map HeaderItem.width := by
    rw [header, List.map_map, List.map_map]
    exact List.map_congr_left fit
  rw [widths, start, List.map_take]

/-- The field of a column is what the column puts into the line. -/
theorem field_flatMap (found : table.columns[position]? = some column) :
    table.field position (table.columns.flatMap fields) = fields column := by
  obtain ⟨inside, rfl⟩ := List.getElem?_eq_some_iff.mp found
  have cut := List.drop_take_succ_flatten_eq_getElem (table.columns.map fields) position
    (by rwa [List.length_map])
  rw [sum_take_length fit, sum_take_length fit, List.getElem_map, ← List.flatMap_def] at cut
  exact cut

/-- All lines are as long as the fields together. -/
theorem length_flatMap :
    (table.columns.flatMap fields).length = table.start table.header.length := by
  have whole : table.header.length = ((table.columns.map fields).map List.length).length := by
    rw [header, List.length_map, List.length_map, List.length_map]
  rw [← sum_take_length fit, whole, List.take_length, List.flatMap_def, List.length_flatten]

end

/-- The header line shows the header field of a column at its place. -/
theorem field_headerLine (found : table.columns[position]? = some column) :
    table.field position table.headerLine = column.headerField :=
  field_flatMap (fun column _ => column.frames_headerField.length_eq) found

/-- The line of a row shows the cell of a column at its place. -/
theorem field_rowLine (found : table.columns[position]? = some column) (row : Nat) :
    table.field position (table.rowLine row) = column.cellField row :=
  field_flatMap (fun column _ => (column.frames_cellField row).length_eq) found

theorem length_of_mem (member : line ∈ table.headerLine :: table.body) :
    line.length = table.start table.header.length := by
  rcases List.mem_cons.mp member with rfl | member
  · exact length_flatMap fun column _ => column.frames_headerField.length_eq
  · obtain ⟨row, -, rfl⟩ := List.mem_map.mp member
    exact length_flatMap fun column _ => (column.frames_cellField row).length_eq

/-- No line is broken by what its fields show. -/
theorem not_mem_newline_of_mem
    (spaced : ∀ column ∈ table.columns, Text.IsSpaced column.item.text.toList)
    (member : line ∈ table.headerLine :: table.body) : '\n' ∉ line := by
  have unbroken (fields : Column -> List Char)
      (spaced : ∀ column ∈ table.columns, Text.IsSpaced (fields column)) :
      '\n' ∉ table.columns.flatMap fields := by
    intro broken
    obtain ⟨column, inTable, inField⟩ := List.mem_flatMap.mp broken
    exact (spaced column inTable).not_mem_newline inField
  rcases List.mem_cons.mp member with rfl | member
  · exact unbroken _ fun column inTable =>
      column.frames_headerField.isSpaced (spaced column inTable)
  · obtain ⟨row, -, rfl⟩ := List.mem_map.mp member
    exact unbroken _ fun column _ =>
      (column.frames_cellField row).isSpaced (column.isSpaced_cellText row)

theorem getElem?_header :
    table.header[position]? = some item ↔
      ∃ column, table.columns[position]? = some column ∧ column.item = item := by
  rw [header, List.getElem?_map, Option.map_eq_some_iff]

/-- A divider is a bar in all lines. -/
theorem field_eq_bar
    (found : table.header[position]? = some .divider)
    (member : line ∈ table.headerLine :: table.body) : table.field position line = ['|'] := by
  obtain ⟨column, inTable, isDivider⟩ := getElem?_header.mp found
  rcases List.mem_cons.mp member with rfl | member
  · rw [field_headerLine inTable]
    exact column.frames_headerField.eq_bar isDivider
  · obtain ⟨row, -, rfl⟩ := List.mem_map.mp member
    rw [field_rowLine inTable]
    exact (column.frames_cellField row).eq_bar isDivider

/-- There is a line in the body for each row. -/
theorem getElem?_body :
    table.body[row]? = some line ↔ row < table.rows ∧ line = table.rowLine row := by
  rw [body, List.getElem?_map, Option.map_eq_some_iff]
  constructor
  · rintro ⟨row', found, rfl⟩
    obtain ⟨inside, rfl⟩ := List.getElem?_eq_some_iff.mp found
    rw [List.length_range] at inside
    rw [List.getElem_range]
    exact ⟨inside, rfl⟩
  · rintro ⟨inside, rfl⟩
    exact ⟨row, List.getElem?_range inside, rfl⟩

/-- Printed as these lines, the table is aligned: the fields of a column stand below each
other. The first line is that of the header. -/
structure IsPrinted
    (table : Table)
    (headerLine : List Char)
    (body : List (List Char)) : Prop where
  text_eq : table.text.toList = (headerLine :: body).flatMap (· ++ ['\n'])
  /-- There is a line for each row. -/
  length_body : body.length = table.rows
  unbroken : ∀ line ∈ headerLine :: body, '\n' ∉ line
  /-- The fields of the columns fill up each line. -/
  length_eq : ∀ line ∈ headerLine :: body, line.length = table.start table.header.length
  /-- The header shows the items. -/
  shows_item : ∀ (position : Nat) (item : HeaderItem),
    table.header[position]? = some item -> item ≠ .divider ->
      Text.IsCentred item.text.toList (table.field position headerLine)
  /-- Below a divider there are bars. -/
  shows_divider : ∀ position : Nat, table.header[position]? = some .divider ->
    ∀ line ∈ headerLine :: body, table.field position line = ['|']
  /-- A row shows its values where there are some, and nothing elsewhere. -/
  shows_value : ∀ (position : Nat) (values : List Bool),
    table.key[position]? = some (some values) ->
      ∀ (row : Nat) (line : List Char), body[row]? = some line ->
        ∃ value, values[row]? = some value ∧
          Text.IsCentred (TruthValue.text value).toList (table.field position line)
  shows_nothing : ∀ (position : Nat) (item : HeaderItem),
    table.header[position]? = some item -> item ≠ .divider ->
      table.key[position]? = some none ->
        ∀ line ∈ body, ∀ c ∈ table.field position line, c = ' '

/-- A table whose parts fit together is printed with a line for its header and one for each
row, if no item would break a line. -/
theorem isPrinted_of_consistent
    (consistent : table.tabulation.Consistent)
    (spaced : ∀ column ∈ table.columns, Text.IsSpaced column.item.text.toList) :
    table.IsPrinted table.headerLine table.body where
  text_eq := table.toList_text
  length_body := by rw [body, List.length_map, List.length_range]
  unbroken _ := not_mem_newline_of_mem spaced
  length_eq _ := length_of_mem
  shows_item := by
    intro position item found notDivider
    obtain ⟨column, inTable, rfl⟩ := getElem?_header.mp found
    rw [field_headerLine inTable]
    exact column.frames_headerField.isCentred notDivider
  shows_divider _ found _ := field_eq_bar found
  shows_value := by
    intro position values found row line inBody
    obtain ⟨inside, rfl⟩ := getElem?_body.mp inBody
    have inValues : row < values.length :=
      (consistent.length_values position values found).symm ▸ inside
    obtain ⟨column, inTable, valuesEq⟩ := getElem?_key.mp found
    -- Values stand below value items only.
    have notDivider : column.item ≠ .divider := by
      obtain ⟨item, isItem, holds⟩ := (consistent.key_iff position).mp ⟨values, found⟩
      obtain ⟨column', inTable', rfl⟩ := getElem?_header.mp isItem
      obtain rfl : column = column' := Option.some.inj (inTable.symm.trans inTable')
      exact HeaderItem.ne_divider_of_holdsValues holds
    refine ⟨values[row], List.getElem?_eq_getElem inValues, ?_⟩
    rw [field_rowLine inTable, ← Column.cellText_of_values valuesEq inValues]
    exact (column.frames_cellField row).isCentred notDivider
  shows_nothing := by
    intro position item found notDivider noValues line member
    obtain ⟨row, -, rfl⟩ := List.mem_map.mp member
    obtain ⟨column, inTable, rfl⟩ := getElem?_header.mp found
    have valuesEq : column.values = none := by
      rw [key, List.getElem?_map, inTable] at noValues
      exact Option.some.inj noValues
    have centred := (column.frames_cellField row).isCentred notDivider
    rw [Column.cellText_of_none valuesEq] at centred
    rw [field_rowLine inTable]
    exact centred.eq_space

end Table

namespace Setup

variable {language : Language} {setup : Setup} {table : Table} {column : Column}
  {basics formulas : List Formula} {formula : Formula}
  {interpretations : List Interpretation} {columns : List Column} {base : Nat} {text : String}

/-- The items above the columns of a formula are cut from its text. -/
theorem items_of_layOut
    (laidOut : layOut language basics interpretations base formula = .ok columns) :
    language.segmentation.items formula.text = .ok (columns.map Column.item) := by
  obtain ⟨items, root, decomposition, cut, -, -, rfl⟩ := layOut_eq_ok laidOut
  rw [cut, Column.map_item_place]

theorem isSpaced_of_reads (reads : Reads language text formula) :
    Text.IsSpaced formula.text.toList :=
  Language.isSpaced_of_parseFormula reads.parseFormula

/-- The columns of formulas that were read have items whose blanks are spaces. -/
theorem isSpaced_of_layOutAll
    (spaced : ∀ formula ∈ formulas, Text.IsSpaced formula.text.toList)
    (laidOut : layOutAll language basics interpretations base formulas = .ok columns)
    (member : column ∈ columns) : Text.IsSpaced column.item.text.toList := by
  induction formulas generalizing base columns with
  | nil =>
      cases laidOut
      cases member
  | cons formula formulas inductionHypothesis =>
      rw [layOutAll] at laidOut
      obtain ⟨first, foundFirst, rest⟩ := bind_eq_ok.mp laidOut
      obtain ⟨others, foundOthers, finished⟩ := bind_eq_ok.mp rest
      cases finished
      obtain ⟨spacedFirst, spacedOthers⟩ := List.forall_mem_cons.mp spaced
      rcases List.mem_append.mp member with member | member
      · rcases List.mem_cons.mp member with rfl | member
        · intro c inText
          cases inText
        · exact Segmentation.isSpaced_of_items (items_of_layOut foundFirst) spacedFirst
            column.item (List.mem_map_of_mem member)
      · exact inductionHypothesis spacedOthers foundOthers member

/-- So have those of the basic formulas: their items are the formulas themselves. -/
theorem isSpaced_of_basicColumns
    (spaced : ∀ formula ∈ basics, Text.IsSpaced formula.text.toList)
    (member : column ∈ basicColumns basics interpretations) :
    Text.IsSpaced column.item.text.toList := by
  rw [basicColumns, List.mem_map] at member
  obtain ⟨⟨formula, place⟩, placed, rfl⟩ := member
  have textEq : (Column.basic (Expression.formula formula).runs
      (interpretations.map fun interpretation => interpretation.value place)).item.text =
      formula.text :=
    TextRun.plainText_merge _
  rw [textEq]
  exact spaced formula (List.fst_mem_of_mem_zipIdx placed)

end Setup
end SymbolicLogic
