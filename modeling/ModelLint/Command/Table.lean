/-!
# Tables

A table has a centred title, a heavy head and one line a row. Every column is as wide as its widest
cell, with a blank on both sides.
-/

namespace ModelLint.Table

/-- A text with blanks up to a width. -/
def padded (width : Nat) (s : String) : String :=
  s ++ String.ofList (List.replicate (width - s.length) ' ')

/-- A text in the middle of a width; the longer half of the blanks stands behind it. -/
def centred (width : Nat) (s : String) : String :=
  padded width (String.ofList (List.replicate ((width - s.length) / 2) ' ') ++ s)

/-- The widths of columns: the greatest lengths of their cells. -/
def widths (rows : List (List String)) : List Nat :=
  rows.foldr (fun row widths =>
    (row.zip widths).map (fun (cell, width) => max cell.length width) ++
      (row.drop widths.length).map String.length ++ widths.drop row.length) []

/-- A rule across columns, from its ends, its corner between columns, and its line. -/
def rule (left line corner right : String) (widths : List Nat) : String :=
  left ++ String.intercalate corner (widths.map fun width =>
    String.join (List.replicate (width + 2) line)) ++ right

/-- A row of cells between bars. -/
def row (bar : String) (widths : List Nat) (cells : List String) : String :=
  bar ++ String.join ((cells.zip widths).map fun (cell, width) =>
    " " ++ padded width cell ++ " " ++ bar)

/-- A table with a title, the names of its columns and its rows. -/
def text (title : String) (head : List String) (rows : List (List String)) : String :=
  let widths := widths (head :: rows)
  let total := widths.foldr (fun width total => width + 3 + total) 1
  let lines := [centred total title, rule "┏" "━" "┳" "┓" widths, row "┃" widths head,
    rule "┡" "━" "╇" "┩" widths] ++ rows.map (row "│" widths) ++ [rule "└" "─" "┴" "┘" widths]
  String.join (lines.map (· ++ "\n"))

end ModelLint.Table
