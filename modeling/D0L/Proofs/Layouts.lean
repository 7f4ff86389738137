import D0L.Proofs.VisibleText
import D0L.Report.Layout
import Mathlib

namespace D0L

/-!
# Layouts show the rows of a report

Nothing is lost in either layout.  Comma separated values are read back by splitting them at line
feeds and commas, for no cell has any; and a table, without its frame and the blanks that fill its
columns, has the same cells.

* `Row.ofCells?`, `Report.csvCells` — reading comma separated values.
* `Report.IsTable` — what a table looks like, and which cells it shows.
* `Report.csvCells_csv` — comma separated values are read back.
* `Report.getElem?_widths` — a column is as wide as its longest cell.
* `Report.isTable_table` — the table shows all cells.
* `Report.layouts_show_rows` — both layouts of the same rows.
-/

/-! ### Reading layouts -/

/-- The row that a line of cells shows, if it is one. -/
def Row.ofCells? : List Text → Option Row
  | [generation, length, replaced, kept] => do
    return {
      generation := ← Numeral.digits? generation
      length := ← Numeral.digits? length
      replaced := ← Numeral.digits? replaced
      kept := ← Numeral.digits? kept }
  | _ => none

/-- The cells of a row tell the row. -/
theorem Row.ofCells?_cells (r : Row) : Row.ofCells? r.cells = some r := by
  simp [cells, ofCells?]

namespace Report

/-- The cells of comma separated values, line by line. -/
def csvCells (text : Text) : List (List Text) :=
  (text.splitOn '\n').dropLast.map (·.splitOn ',')

/-- What stands between the bars of a line, if it starts and ends with one. -/
def fields? (line : Text) : Option (List Text) :=
  if line.head? = some '│' ∧ line.getLast? = some '│' then some (line.tail.dropLast.splitOn '│')
  else none

/-- The cells at one place of some lines. -/
def column (lines : List (List Text)) (j : Nat) : List Text := lines.filterMap (·[j]?)

/-- A text is a table of some lines of cells, with columns of the widths `ws`.  The first line is
    `head`, and the others are `body`. -/
structure IsTable (lines : List (List Text)) (ws : List Nat) (head : Text) (body : List Text)
    (text : Text) : Prop where
  /-- The frame has three lines. -/
  lines_eq : text.splitOn '\n' = rule ws '╭' '┬' '╮' :: head :: rule ws '├' '┼' '┤'
    :: body ++ [rule ws '╰' '┴' '╯']
  /-- All lines are equally long. -/
  length_eq : ∀ line ∈ text.splitOn '\n', line.length = (ws.map (· + 3)).sum + 1
  /-- A column is as wide as its longest cell. -/
  width_eq : ∀ j, ws[j]? = ((column lines j).map List.length).max?
  /-- Between the bars there is one blank more on either side. -/
  fields_length : ∀ line ∈ head :: body,
    (fields? line).map (·.map List.length) = some (ws.map (· + 2))
  /-- Without blanks around them, the cells stand between the bars. -/
  fields_trim : (head :: body).map (fun line => (fields? line).map (·.map Text.trim)) =
    lines.map some

/-! ### Cells -/

/-- A text that can be a cell in both layouts. -/
structure IsCell (cell : Text) : Prop where
  /-- It is on one line. -/
  lineFeed : '\n' ∉ cell
  /-- It has no comma. -/
  comma : ',' ∉ cell
  /-- It has no bar. -/
  bar : '│' ∉ cell
  /-- It has no blank at either end. -/
  trim_eq : Text.trim cell = cell

/-- The names of the columns are cells. -/
theorem isCell_of_mem_header : ∀ cell ∈ header, IsCell cell := by
  have hheader : ∀ cell ∈ header, '\n' ∉ cell ∧ ',' ∉ cell ∧ '│' ∉ cell ∧
      Text.trim cell = cell := by
    decide
  intro cell hcell
  obtain ⟨hfeed, hcomma, hbar, htrim⟩ := hheader cell hcell
  exact ⟨hfeed, hcomma, hbar, htrim⟩

/-- A number is a cell. -/
theorem isCell_write (n : Nat) : IsCell (Numeral.write n) where
  lineFeed := Numeral.not_mem_write (by decide) n
  comma := Numeral.not_mem_write (by decide) n
  bar := Numeral.not_mem_write (by decide) n
  trim_eq := (Numeral.isVisible_write n).trim_eq

variable {rows : List Row}

/-- All that a layout shows, header and rows, are cells. -/
theorem isCell_of_mem {line : List Text} (h : line ∈ cells rows) : ∀ cell ∈ line, IsCell cell := by
  obtain rfl | hrow := List.mem_cons.1 h
  · exact isCell_of_mem_header
  · obtain ⟨r, -, rfl⟩ := List.mem_map.1 hrow
    intro cell hcell
    obtain ⟨n, -, rfl⟩ := List.mem_map.1 hcell
    exact isCell_write n

/-- Every line has one cell for each column. -/
theorem length_of_mem_cells {line : List Text} (h : line ∈ cells rows) :
    line.length = header.length := by
  obtain rfl | hrow := List.mem_cons.1 h
  · rfl
  · obtain ⟨r, -, rfl⟩ := List.mem_map.1 hrow
    rfl

/-- So no line is empty. -/
theorem ne_nil_of_mem_cells {line : List Text} (h : line ∈ cells rows) : line ≠ [] := by
  rintro rfl
  cases length_of_mem_cells h

/-! ### Texts with a separator -/

variable {c s left right : Char} {parts : List Text}

/-- Parts are read back by splitting. -/
theorem splitOn_separated (h : ∀ part ∈ parts, c ∉ part) (hne : parts ≠ []) :
    (separated [c] parts).splitOn c = parts :=
  List.splitOn_intercalate c h hne

/-- Between the parts there is nothing but separators. -/
theorem not_mem_separated (hs : c ≠ s) (h : ∀ part ∈ parts, c ∉ part) :
    c ∉ separated [s] parts := by
  show c ∉ [s].intercalate parts
  induction parts with
  | nil => exact List.not_mem_nil
  | cons part parts ih =>
    obtain ⟨hpart, hparts⟩ := List.forall_mem_cons.1 h
    cases parts with
    | nil => rwa [List.intercalate_singleton]
    | cons next parts =>
      rw [List.intercalate_cons_cons]
      exact List.not_mem_append (List.not_mem_append hpart (mt List.mem_singleton.1 hs))
        (ih hparts)

/-- There is one separator less than there are parts. -/
theorem length_separated (h : parts ≠ []) :
    (separated [s] parts).length + 1 = ((parts.map List.length).map (· + 1)).sum := by
  show ([s].intercalate parts).length + 1 = _
  induction parts with
  | nil => exact absurd rfl h
  | cons part parts ih =>
    cases parts with
    | nil => simp
    | cons next parts =>
      have hnext := ih (List.cons_ne_nil _ _)
      rw [List.intercalate_cons_cons, List.length_append, List.length_append, List.length_singleton,
        Nat.add_assoc _ _ 1, hnext]
      rfl

/-- A line of a frame has no other line feeds or the like than its parts. -/
theorem not_mem_framed (hleft : c ≠ left) (hs : c ≠ s) (hright : c ≠ right)
    (h : ∀ part ∈ parts, c ∉ part) : c ∉ left :: separated [s] parts ++ [right] :=
  List.not_mem_append (List.not_mem_cons_of_ne_of_not_mem hleft (not_mem_separated hs h))
    (mt List.mem_singleton.1 hright)

/-- As many parts as widths, so at least one. -/
theorem ne_nil_of_map_length {ws : List Nat} (hne : ws ≠ [])
    (h : parts.map List.length = ws.map (· + 2)) : parts ≠ [] := by
  rintro rfl
  exact hne (List.map_eq_nil_iff.1 h.symm)

/-- The length of a framed line depends on the widths of its parts only: one character behind each
    part, and one in front of all. -/
theorem length_framed {ws : List Nat} (hne : ws ≠ [])
    (h : parts.map List.length = ws.map (· + 2)) :
    (left :: separated [s] parts ++ [right]).length = (ws.map (· + 3)).sum + 1 := by
  have hsum : (separated [s] parts).length + 1 = ((parts.map List.length).map (· + 1)).sum :=
    length_separated (ne_nil_of_map_length hne h)
  rw [h, List.map_map] at hsum
  rw [List.length_append, List.length_cons, hsum]
  rfl

/-! ### Comma separated values -/

/-- No cell holds a line feed, so the line feeds of the layout are those between its lines; the last
    one has nothing behind it. -/
theorem splitOn_csvLines {lines : List (List Text)}
    (h : ∀ line ∈ lines, ∀ cell ∈ line, '\n' ∉ cell) :
    (lines.flatMap csvLine).splitOn '\n' = lines.map (separated [',']) ++ [[]] := by
  induction lines with
  | nil => rfl
  | cons line lines ih =>
    obtain ⟨hline, hlines⟩ := List.forall_mem_cons.1 h
    rw [List.flatMap_cons, csvLine, List.append_assoc, List.singleton_append,
      List.splitOn_append_cons_self_of_not_mem (not_mem_separated (by decide) hline), ih hlines]
    rfl

/-- The lines of comma separated values are the header and the rows. -/
theorem splitOn_csv (h : rows ≠ []) :
    (csv rows).splitOn '\n' = (cells rows).map (separated [',']) ++ [[]] := by
  rw [csv, if_neg h]
  exact splitOn_csvLines fun line hline cell hcell => (isCell_of_mem hline cell hcell).lineFeed

/-- No cell holds a comma, so the commas of a line are those between its cells. -/
theorem splitOn_separated_of_mem {line : List Text} (h : line ∈ cells rows) :
    (separated [','] line).splitOn ',' = line :=
  splitOn_separated (fun cell hcell => (isCell_of_mem h cell hcell).comma) (ne_nil_of_mem_cells h)

/-- **Comma separated values are read back.** -/
theorem csvCells_csv (h : rows ≠ []) : csvCells (csv rows) = cells rows := by
  rw [csvCells, splitOn_csv h, List.dropLast_concat, List.map_map]
  exact (List.map_congr_left fun line hline => splitOn_separated_of_mem hline).trans
    (List.map_id _)

/-! ### Columns -/

variable {lines : List (List Text)}

/-- What is in a column: one cell of each line that is long enough. -/
theorem mem_column_iff {j : Nat} {cell : Text} :
    cell ∈ column lines j ↔ ∃ l ∈ lines, l[j]? = some cell :=
  List.mem_filterMap

/-- There is one width for each column. -/
theorem length_widths (h : ∀ line ∈ lines, line.length = header.length) :
    (widths lines).length = header.length := by
  induction lines with
  | nil => rfl
  | cons line lines ih =>
    obtain ⟨hline, hlines⟩ := List.forall_mem_cons.1 h
    show (List.zipWith max (line.map List.length) (widths lines)).length = _
    rw [List.length_zipWith, List.length_map, hline, ih hlines, Nat.min_self]

/-- The width of a column, which is 0 if there are no lines. -/
theorem getElem?_widths_of_lt (h : ∀ line ∈ lines, line.length = header.length) {j : Nat}
    (hj : j < header.length) :
    (widths lines)[j]? = some (((column lines j).map List.length).max?.getD 0) := by
  induction lines with
  | nil =>
    show (header.map fun _ => 0)[j]? = some 0
    rw [List.getElem?_map, List.getElem?_eq_getElem hj, Option.map_some]
  | cons l lines ih =>
    obtain ⟨hl, hlines⟩ := List.forall_mem_cons.1 h
    have hcell : l[j]? = some l[j] := List.getElem?_eq_getElem _
    have hcolumn : column (l :: lines) j = l[j] :: column lines j :=
      List.filterMap_cons_some hcell
    -- the widest of a line and of those below it, column by column
    show (List.zipWith max (l.map List.length) (widths lines))[j]? = _
    rw [List.getElem?_zipWith, List.getElem?_map, hcell, ih hlines, hcolumn, List.map_cons,
      List.max?_cons]
    cases ((column lines j).map List.length).max? with
    | none => simp
    | some w => rfl

/-- **A column is as wide as its longest cell.** -/
theorem getElem?_widths (h : ∀ line ∈ lines, line.length = header.length) (hne : lines ≠ [])
    (j : Nat) : (widths lines)[j]? = ((column lines j).map List.length).max? := by
  by_cases hj : j < header.length
  · obtain ⟨line, hline⟩ := List.exists_mem_of_ne_nil lines hne
    have hlength : j < line.length := by rwa [h line hline]
    have hcolumn : ((column lines j).map List.length).max?.isSome = true :=
      List.isSome_max?_of_mem (List.mem_map_of_mem
        (mem_column_iff.2 ⟨line, hline, List.getElem?_eq_getElem hlength⟩))
    obtain ⟨w, hw⟩ := Option.isSome_iff_exists.1 hcolumn
    rw [getElem?_widths_of_lt h hj, hw]
    rfl
  · -- there is no such column
    have hcolumn : column lines j = [] := List.filterMap_eq_nil_iff.2 fun line hline =>
      List.getElem?_eq_none (by rw [h line hline]; exact Nat.not_lt.1 hj)
    rw [List.getElem?_eq_none (by rw [length_widths h]; exact Nat.not_lt.1 hj), hcolumn]
    rfl

/-- No cell is longer than its column is wide. -/
def Fits (ws : List Nat) (line : List Text) : Prop :=
  List.Forall₂ (fun w cell => cell.length ≤ w) ws line

/-- The width of a column is the greatest of its cells, so all of them fit. -/
theorem fits_widths (h : ∀ line ∈ lines, line.length = header.length) {l : List Text}
    (hl : l ∈ lines) : Fits (widths lines) l := by
  refine List.forall₂_iff_get.2 ⟨(length_widths h).trans (h l hl).symm, fun j hj hj' => ?_⟩
  have hwidth : some (widths lines)[j] = ((column lines j).map List.length).max? :=
    (List.getElem?_eq_getElem hj).symm.trans (getElem?_widths h (List.ne_nil_of_mem hl) j)
  have hcell : l[j].length ∈ (column lines j).map List.length :=
    List.mem_map_of_mem (mem_column_iff.2 ⟨l, hl, List.getElem?_eq_getElem hj'⟩)
  exact (List.max?_eq_some_iff.1 hwidth.symm).2 _ hcell

/-! ### Lines of a table -/

/-- Padding fills a cell up to the width, with a blank at either end. -/
theorem length_padded {w : Nat} {cell : Text} (h : cell.length ≤ w) :
    (padded w cell).length = w + 2 := by
  simp only [padded, List.length_append, List.length_cons, List.length_replicate, List.length_nil]
  omega

/-- A cell has no blanks at its ends, so trimming takes away the padding only. -/
theorem trim_padded {cell : Text} (h : IsCell cell) (w : Nat) :
    Text.trim (padded w cell) = cell := by
  have hspace : ∀ c ∈ [' '], isBlank c = true := List.forall_mem_singleton.2 rfl
  have hblanks : ∀ c ∈ List.replicate (w - cell.length) ' ' ++ [' '], isBlank c = true :=
    List.forall_mem_append.2 ⟨fun c hc => List.eq_of_mem_replicate hc ▸ rfl, hspace⟩
  have hpadded : padded w cell =
      [' '] ++ (cell ++ (List.replicate (w - cell.length) ' ' ++ [' '])) := by
    rw [padded, List.append_assoc]
    rfl
  rw [hpadded, Text.trim_append_of_all hspace hblanks, h.trim_eq]

/-- Padding adds nothing but blanks. -/
theorem not_mem_padded {cell : Text} (hc : c ≠ ' ') (h : c ∉ cell) (w : Nat) :
    c ∉ padded w cell :=
  List.not_mem_append
    (List.not_mem_append (List.not_mem_cons_of_ne_of_not_mem hc h)
      fun hmem => hc (List.eq_of_mem_replicate hmem))
    (mt List.mem_singleton.1 hc)

variable {ws : List Nat} {line : List Text}

/-- Nor does it in a whole line. -/
theorem forall_not_mem_padded (hc : c ≠ ' ') (h : ∀ cell ∈ line, c ∉ cell) :
    ∀ part ∈ List.zipWith padded ws line, c ∉ part := by
  intro part hpart
  obtain ⟨j, hj, rfl⟩ := List.getElem_of_mem hpart
  rw [List.getElem_zipWith]
  exact not_mem_padded hc (h _ (List.getElem_mem _)) _

/-- Padded cells are as long as their columns are wide, whatever they hold. -/
theorem map_length_padded (h : Fits ws line) :
    (List.zipWith padded ws line).map List.length = ws.map (· + 2) := by
  induction h with
  | nil => rfl
  | cons hfits _ ih =>
    rw [List.zipWith_cons_cons, List.map_cons, length_padded hfits, ih, List.map_cons]

/-- Padded cells are trimmed to what they were. -/
theorem map_trim_padded (h : Fits ws line) (hcells : ∀ cell ∈ line, IsCell cell) :
    (List.zipWith padded ws line).map Text.trim = line := by
  induction h with
  | nil => rfl
  | cons _ _ ih =>
    obtain ⟨hcell, hcells⟩ := List.forall_mem_cons.1 hcells
    rw [List.zipWith_cons_cons, List.map_cons, trim_padded hcell, ih hcells]

/-- Between the bars are the cells with their blanks. -/
theorem fields?_tableLine (hne : ws ≠ []) (hfits : Fits ws line)
    (hcells : ∀ cell ∈ line, IsCell cell) :
    fields? (tableLine ws line) = some (List.zipWith padded ws line) := by
  have hbar : ∀ part ∈ List.zipWith padded ws line, '│' ∉ part :=
    forall_not_mem_padded (by decide) fun cell hcell => (hcells cell hcell).bar
  have hparts : List.zipWith padded ws line ≠ [] :=
    ne_nil_of_map_length hne (map_length_padded hfits)
  rw [fields?, if_pos ⟨rfl, List.getLast?_concat ..⟩]
  show some ((separated ['│'] (List.zipWith padded ws line) ++ ['│']).dropLast.splitOn '│') = _
  rw [List.dropLast_concat, splitOn_separated hbar hparts]

/-! ### The table of a report -/

/-- A table has columns. -/
theorem widths_cells_ne_nil : widths (cells rows) ≠ [] :=
  List.ne_nil_of_length_pos
    ((length_widths fun _ => length_of_mem_cells).symm ▸ by decide)

/-- Every line of a table fits its columns. -/
theorem fits_of_mem_cells (h : line ∈ cells rows) : Fits (widths (cells rows)) line :=
  fits_widths (fun _ => length_of_mem_cells) h

/-- The fields of a line in a table are its padded cells. -/
theorem fields?_of_mem_cells (h : line ∈ cells rows) :
    fields? (tableLine (widths (cells rows)) line) =
      some (List.zipWith padded (widths (cells rows)) line) :=
  fields?_tableLine widths_cells_ne_nil (fits_of_mem_cells h) (isCell_of_mem h)

/-- What all lines of a table have in common. -/
theorem forall_mem_tableLines {P : Text → Prop}
    (hrule : ∀ left middle right, '\n' ∉ [left, middle, right] →
      P (rule (widths (cells rows)) left middle right))
    (hline : ∀ line ∈ cells rows, P (tableLine (widths (cells rows)) line)) :
    ∀ text ∈ tableLines rows, P text := by
  have hhead : P (tableLine (widths (cells rows)) header) := hline _ List.mem_cons_self
  have hbody : ∀ text ∈ rows.map fun r => tableLine (widths (cells rows)) r.cells, P text := by
    intro text htext
    obtain ⟨r, hr, rfl⟩ := List.mem_map.1 htext
    exact hline _ (List.mem_cons_of_mem _ (List.mem_map_of_mem hr))
  refine List.forall_mem_append.2 ⟨?_, List.forall_mem_singleton.2 (hrule _ _ _ (by decide))⟩
  exact List.forall_mem_cons.2 ⟨hrule _ _ _ (by decide), List.forall_mem_cons.2 ⟨hhead,
    List.forall_mem_cons.2 ⟨hrule _ _ _ (by decide), hbody⟩⟩⟩

/-- A table is the lines that it is built from: none of them holds a line feed. -/
theorem splitOn_table (h : rows ≠ []) : (table rows).splitOn '\n' = tableLines rows := by
  rw [table, if_neg h]
  refine splitOn_separated (forall_mem_tableLines ?_ ?_) (List.cons_ne_nil _ _)
  · intro left middle right hends
    obtain ⟨hleft, hends⟩ := List.ne_and_not_mem_of_not_mem_cons hends
    obtain ⟨hmiddle, hright⟩ := List.ne_and_not_mem_of_not_mem_cons hends
    refine not_mem_framed hleft hmiddle (List.ne_of_not_mem_cons hright) ?_
    intro part hpart hmem
    obtain ⟨w, -, rfl⟩ := List.mem_map.1 hpart
    cases List.eq_of_mem_replicate hmem
  · intro line hline
    exact not_mem_framed (by decide) (by decide) (by decide) (forall_not_mem_padded (by decide)
      fun cell hcell => (isCell_of_mem hline cell hcell).lineFeed)

/-- **A table shows all cells.** -/
theorem isTable_table (h : rows ≠ []) :
    IsTable (cells rows) (widths (cells rows)) (tableLine (widths (cells rows)) header)
      (rows.map fun r => tableLine (widths (cells rows)) r.cells) (table rows) := by
  -- the heading and the rows are shown by the same function, so the cells are one list
  have hshown : (tableLine (widths (cells rows)) header
      :: rows.map fun r => tableLine (widths (cells rows)) r.cells) =
      (cells rows).map (tableLine (widths (cells rows))) := by
    rw [cells, List.map_cons, List.map_map]
    rfl
  constructor
  case lines_eq => exact splitOn_table h
  case length_eq =>
    rw [splitOn_table h]
    refine forall_mem_tableLines ?_ ?_
    · intro left middle right _
      exact length_framed widths_cells_ne_nil (by simp)
    · intro line hline
      exact length_framed widths_cells_ne_nil (map_length_padded (fits_of_mem_cells hline))
  case width_eq => exact getElem?_widths (fun _ => length_of_mem_cells) (List.cons_ne_nil _ _)
  case fields_length =>
    rw [hshown]
    refine List.forall_mem_map.2 fun line hline => ?_
    rw [fields?_of_mem_cells hline, Option.map_some, map_length_padded (fits_of_mem_cells hline)]
  case fields_trim =>
    rw [hshown, List.map_map]
    refine List.map_congr_left fun line hline => ?_
    show (fields? (tableLine (widths (cells rows)) line)).map _ = _
    rw [fields?_of_mem_cells hline, Option.map_some,
      map_trim_padded (fits_of_mem_cells hline) (isCell_of_mem hline)]

/-! ### Both layouts -/

/-- **Both layouts show the rows.**  Comma separated values are a line with the names of the columns
    and one line for each row, which can be read from it.  A table has four lines more than there
    are rows; it is as wide as the cells need, and shows the same cells.  There is no text without
    rows. -/
theorem layouts_show_rows (h : rows ≠ []) :
    csv [] = [] ∧ table [] = [] ∧
    (∃ lines,
      (csv rows).splitOn '\n' =
        "Generation,Length,Rewritten,Passed Through".toList :: lines ++ [[]] ∧
      lines.map (fun line => Row.ofCells? (line.splitOn ',')) = rows.map some) ∧
    ((table rows).splitOn '\n').length = rows.length + 4 ∧
    ∃ ws head body, IsTable (csvCells (csv rows)) ws head body (table rows) := by
  refine ⟨rfl, rfl, ⟨rows.map fun r => separated [','] r.cells, ?_, ?_⟩, ?_, ?_⟩
  · rw [splitOn_csv h, cells, List.map_cons, List.map_map]
    rfl
  · rw [List.map_map]
    refine List.map_congr_left fun r hr => ?_
    -- a cell has no comma, so the line comes apart as it was put together
    show Row.ofCells? ((separated [','] r.cells).splitOn ',') = some r
    rw [splitOn_separated_of_mem (List.mem_cons_of_mem header (List.mem_map_of_mem hr)),
      Row.ofCells?_cells]
  · rw [splitOn_table h]
    simp [tableLines]
  · rw [csvCells_csv h]
    exact ⟨_, _, _, isTable_table h⟩

/-- The greatest numbers of 64 and of 128 bits, below a short row. -/
theorem layouts_show_rows_greatest :
    let rows : List Row := [⟨0, 1, 1, 0⟩, ⟨18446744073709551615,
      340282366920938463463374607431768211455, 0, 340282366920938463463374607431768211455⟩]
    rows ≠ [] ∧
      (∃ lines,
        (csv rows).splitOn '\n' =
          "Generation,Length,Rewritten,Passed Through".toList :: lines ++ [[]] ∧
        lines.map (fun line => Row.ofCells? (line.splitOn ',')) = rows.map some) ∧
      ((table rows).splitOn '\n').length = 6 ∧
      ∃ ws head body, IsTable (csvCells (csv rows)) ws head body (table rows) :=
  have h := layouts_show_rows (List.cons_ne_nil _ _)
  ⟨List.cons_ne_nil _ _, h.2.2⟩

end Report

end D0L
