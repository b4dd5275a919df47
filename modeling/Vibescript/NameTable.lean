import Std.Data.TreeMap.Basic

/-!
# Interned names

Each text that a parse keeps (a name, a symbol, the value of a string literal) is stored once
in a name table, which hands out a number for it. Numbers are given in the order of first
appearance and the empty text always has number zero.
-/
namespace Vibescript

/-- A handle to a text in a name table. -/
structure Name where
  /-- Place of the text in its table. -/
  index : Nat
  deriving DecidableEq, Repr, Inhabited

/-- The name of the empty text, in every table. -/
def Name.empty : Name := ⟨0⟩

/-- The distinct texts of one parse. -/
structure NameTable where
  /-- The name of each text. -/
  names : Std.TreeMap String Name
  /-- The text of each name, in the order of first appearance. -/
  texts : Array String

namespace NameTable

/-- The number of texts beyond which a table is full. -/
def capacity : Nat := UInt32.size

/-- A table refused a new text because it is full. -/
structure Full where
  /-- The number of texts it holds. -/
  size : Nat
  deriving DecidableEq, Repr

/-- The wording of the refusal. -/
def Full.message (full : Full) : String :=
  s!"interner holds {full.size} strings, max is u32::MAX"

/-- A table without any text. -/
def bare : NameTable := ⟨∅, #[]⟩

/-- The name of a text, which is added to the table unless it is there already. -/
def intern (table : NameTable) (text : String) : Name × NameTable :=
  match table.names[text]? with
  | some name => (name, table)
  | none =>
    let name : Name := ⟨table.texts.size⟩
    (name, ⟨table.names.insert text name, table.texts.push text⟩)

/-- As `intern`, but a full table refuses a new text. -/
def tryIntern (table : NameTable) (text : String) : Except Full (Name × NameTable) :=
  if table.names[text]?.isNone ∧ capacity ≤ table.texts.size then .error ⟨table.texts.size⟩
  else .ok (table.intern text)

/-- The table that holds only the empty text. -/
def initial : NameTable := (bare.intern "").2

/-- Intern texts from left to right. -/
def internAll (table : NameTable) : List String → List Name × NameTable
  | [] => ([], table)
  | text :: texts =>
    let (name, table) := table.intern text
    let (names, table) := table.internAll texts
    (name :: names, table)

/-- The text of a name, empty for a name of another table. -/
def text (table : NameTable) (name : Name) : String := table.texts[name.index]?.getD ""

/-- Number of distinct texts. -/
def size (table : NameTable) : Nat := table.texts.size

/-- Whether there is no text at all. -/
def isEmpty (table : NameTable) : Bool := table.texts.isEmpty

end NameTable

end Vibescript
