import Vibescript.Text.Utf8

/-!
# Lines and columns

A line table turns byte offsets into lines and columns. Lines are counted from one and end
with a line feed; columns are counted from one in characters.
-/
namespace Vibescript

/-- A source text with the byte offset of every line. -/
structure LineTable where
  /-- The source text. -/
  source : List Char
  /-- Offset of the first byte of each line, in order. -/
  starts : List Nat
  deriving Repr

/-- A line and a column, both counted from one. -/
structure Position where
  /-- The line. -/
  line : Nat
  /-- The column, in characters. -/
  column : Nat
  deriving DecidableEq, Repr

namespace LineTable

/-- Offsets just past the line feeds of a text that starts at a given offset. -/
def startsAfter : Nat → List Char → List Nat
  | _, [] => []
  | offset, char :: rest =>
    let next := offset + char.utf8Size
    if char = '\n' then next :: startsAfter next rest else startsAfter next rest

/-- The line table of a source text. -/
def ofSource (source : List Char) : LineTable := ⟨source, 0 :: startsAfter 0 source⟩

/-- The line of an offset: the number of lines that start at or before it. -/
def line (table : LineTable) (offset : Nat) : Nat := table.starts.countP (· ≤ offset)

/-- Line and column of an offset. The column counts the characters between the start of the
line and the offset. An offset past the end of the source counts as the end; one inside a
character has column one. -/
def position (table : LineTable) (offset : Nat) : Position :=
  let line := table.line offset
  let start := table.starts[line - 1]?.getD 0
  let stop := min offset (Text.byteLength table.source)
  ⟨line, ((Text.slice? table.source ⟨start, stop⟩).map List.length).getD 0 + 1⟩

/-- A text without one final carriage return. -/
def dropCarriageReturn (text : List Char) : List Char :=
  if text.getLast? = some '\r' then text.dropLast else text

/-- The text of a line without its line ending; empty for a line that does not exist. -/
def lineText (table : LineTable) (line : Nat) : List Char :=
  match line with
  | 0 => []
  | before + 1 =>
    match table.starts[before]? with
    | none => []
    | some start =>
      let stop := (table.starts[before + 1]?.map (· - 1)).getD (Text.byteLength table.source)
      dropCarriageReturn (Text.slice table.source ⟨start, stop⟩)

end LineTable

end Vibescript
