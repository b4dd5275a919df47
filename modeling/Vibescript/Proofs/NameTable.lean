import Std.Data.TreeMap.Lemmas
import Vibescript.Token.Basic

/-!
# Name tables that grow

A name table only grows, and a name keeps its text for ever. Sound tables are those whose map
and list agree, so the name that interning gives for a text reads that text.
-/
namespace Vibescript

namespace NameTable

/-- Whether a name is a place in the table. -/
def Holds (table : NameTable) (name : Name) : Prop := name.index < table.size

/-- The map of a sound table leads each text to the name with that text. -/
def Sound (table : NameTable) : Prop :=
  ∀ (text : String) (name : Name), table.names[text]? = some name ↔
    table.texts[name.index]? = some text

/-- One table starts with the texts of another. -/
def Grows (before after : NameTable) : Prop := before.texts.toList <+: after.texts.toList

namespace Grows

variable {first second third : NameTable}

/-- Every table starts with its own texts. -/
theorem refl (table : NameTable) : table.Grows table := List.prefix_rfl

/-- Growing twice is growing. -/
theorem trans (left : first.Grows second) (right : second.Grows third) : first.Grows third :=
  List.IsPrefix.trans left right

/-- A grown table still holds its names. -/
theorem holds (grows : first.Grows second) {name : Name} (known : first.Holds name) :
    second.Holds name :=
  Nat.lt_of_lt_of_le known (List.IsPrefix.length_le grows)

/-- A grown table reads its names as before. -/
theorem text (grows : first.Grows second) {name : Name} (known : first.Holds name) :
    second.text name = first.text name := by
  obtain ⟨added, whole⟩ := grows
  have size : name.index < first.texts.toList.length := known
  simp only [NameTable.text, ← Array.getElem?_toList, ← whole,
    List.getElem?_append_left size]

end Grows

/-- A table holds some names, and they read some texts. -/
def Knows (table : NameTable) (known : List (Name × String)) : Prop :=
  ∀ name text, (name, text) ∈ known → table.Holds name ∧ table.text name = text

/-- A grown table knows what the table knew. -/
theorem Knows.mono {before after : NameTable} {known : List (Name × String)}
    (knows : before.Knows known) (grows : before.Grows after) : after.Knows known := by
  intro name text member
  obtain ⟨holds, same⟩ := knows name text member
  exact ⟨grows.holds holds, (grows.text holds).trans same⟩

/-- Interning grows the table. -/
theorem grows_intern (table : NameTable) (text : String) :
    table.Grows (table.intern text).2 := by
  unfold intern Grows
  split <;> simp

/-- Interning gives a name that the table then holds. -/
theorem holds_intern {table : NameTable} (sound : table.Sound) (text : String) :
    (table.intern text).2.Holds (table.intern text).1 := by
  unfold intern Holds size
  split
  · next name found =>
    obtain ⟨inside, _⟩ := Array.getElem?_eq_some_iff.mp ((sound text name).mp found)
    exact inside
  · simp

/-- Interning gives a name that reads the text. -/
theorem text_intern {table : NameTable} (sound : table.Sound) (text : String) :
    (table.intern text).2.text (table.intern text).1 = text := by
  unfold intern NameTable.text
  split
  · next name found => simp [(sound text name).mp found]
  · simp

/-- Interning keeps a table sound. -/
theorem sound_intern {table : NameTable} (sound : table.Sound) (text : String) :
    (table.intern text).2.Sound := by
  unfold intern
  split
  · exact sound
  · next absent =>
    intro other name
    rw [Std.TreeMap.getElem?_insert, Array.getElem?_push]
    split
    · next same =>
      obtain rfl : text = other := Std.LawfulEqCmp.eq_of_compare same
      constructor
      · intro found
        obtain rfl : Name.mk table.texts.size = name := Option.some.inj found
        simp
      · intro found
        split at found
        · next isNew => rw [← isNew]
        · have earlier := (sound text name).mpr found
          rw [absent] at earlier
          contradiction
    · next differs =>
      have apart : text ≠ other := fun same => differs (same ▸ Std.ReflCmp.compare_self)
      rw [sound other name]
      split
      · next isNew =>
        rw [isNew, Array.getElem?_eq_none (Nat.le_refl _)]
        exact ⟨nofun, fun same => absurd (Option.some.inj same) apart⟩
      · exact Iff.rfl

/-- In a sound table, names with the same text are the same. -/
theorem Sound.text_inj {table : NameTable} (sound : table.Sound) {left right : Name}
    (holds : table.Holds left) (holdsOther : table.Holds right)
    (same : table.text left = table.text right) : left = right := by
  have found (name : Name) (holds : table.Holds name) :
      table.names[table.text name]? = some name := by
    rw [sound, NameTable.text, Array.getElem?_eq_getElem holds]
    rfl
  have leads := found left holds
  rw [same, found right holdsOther] at leads
  exact (Option.some.inj leads).symm

/-- After interning, the table knows the text as well. -/
theorem Knows.intern {table : NameTable} {known : List (Name × String)}
    (knows : table.Knows known) (sound : table.Sound) (text : String) :
    (table.intern text).2.Knows (known ++ [((table.intern text).1, text)]) := by
  intro name other member
  rcases List.mem_append.mp member with early | late
  · exact knows.mono (table.grows_intern text) name other early
  · obtain ⟨rfl, rfl⟩ := Prod.mk.inj (List.mem_singleton.mp late)
    exact ⟨holds_intern sound other, text_intern sound other⟩

/-- One table came from another by interning texts. -/
inductive Interns (before : NameTable) : NameTable → Prop
  /-- Nothing was interned. -/
  | refl : Interns before before
  /-- A text was interned last. -/
  | intern {after : NameTable} (interns : Interns before after) (text : String) :
    Interns before (after.intern text).2

namespace Interns

variable {first second third : NameTable}

/-- Interning more texts. -/
theorem trans (left : first.Interns second) (right : second.Interns third) :
    first.Interns third := by
  induction right with
  | refl => exact left
  | intern _ text ih => exact ih.intern text

/-- Interning texts grows the table. -/
theorem grows (interns : first.Interns second) : first.Grows second := by
  induction interns with
  | refl => exact .refl first
  | intern _ text ih => exact ih.trans (grows_intern _ text)

/-- Interning texts keeps a table sound. -/
theorem sound (interns : first.Interns second) (sound : first.Sound) : second.Sound := by
  induction interns with
  | refl => exact sound
  | intern _ text ih => exact sound_intern ih text

end Interns

/-- The table without any text is sound. -/
theorem sound_bare : bare.Sound := fun text name => by simp [bare]

/-- The table of the empty text is sound. -/
theorem sound_initial : initial.Sound := sound_intern sound_bare ""

end NameTable

namespace TokenKind

/-- A kind whose names a table holds. -/
def Known (kind : TokenKind Name) (table : NameTable) : Prop :=
  ∀ name ∈ kind.name?, table.Holds name

/-- A kind without a name is known to every table. -/
theorem known_of_name?_eq_none {kind : TokenKind Name} (nameless : kind.name? = none)
    (table : NameTable) : kind.Known table := by
  simp [Known, nameless]

/-- A kind stays known while the table grows. -/
theorem Known.mono {kind : TokenKind Name} {before after : NameTable} (known : kind.Known before)
    (grows : before.Grows after) : kind.Known after :=
  fun name member => grows.holds (known name member)

/-- A kind reads the same in a grown table. -/
theorem Known.map_text {kind : TokenKind Name} {before after : NameTable}
    (known : kind.Known before) (grows : before.Grows after) :
    kind.map after.text = kind.map before.text := by
  cases kind <;> simp only [map, TokenKind.symbol.injEq, identifier.injEq, constant.injEq,
    stringContent.injEq, instanceVariable.injEq, classVariable.injEq] <;>
    exact grows.text (known _ rfl)

/-- Interning a kind grows the table. -/
theorem grows_intern (kind : TokenKind String) (table : NameTable) :
    table.Grows (kind.intern table).2 := by
  unfold intern
  split
  · exact .refl table
  · exact table.grows_intern _

/-- Interning a kind keeps the table sound. -/
theorem sound_intern (kind : TokenKind String) {table : NameTable} (sound : table.Sound) :
    (kind.intern table).2.Sound := by
  unfold intern
  split
  · exact sound
  · exact NameTable.sound_intern sound _

/-- The table holds the name of an interned kind. -/
theorem known_intern (kind : TokenKind String) {table : NameTable} (sound : table.Sound) :
    (kind.intern table).1.Known (kind.intern table).2 := by
  intro name member
  cases kind <;> simp only [intern, name?, map, Option.mem_def, Option.some.injEq,
    reduceCtorEq] at member ⊢ <;> subst member <;> exact NameTable.holds_intern sound _

/-- An interned kind reads as the kind that was interned. -/
theorem map_text_intern (kind : TokenKind String) {table : NameTable} (sound : table.Sound) :
    (kind.intern table).1.map (kind.intern table).2.text = kind := by
  cases kind <;> simp only [intern, name?, map, NameTable.text_intern sound]

/-- Interning keeps the tag. -/
@[simp] theorem tag_intern (kind : TokenKind String) (table : NameTable) :
    (kind.intern table).1.tag = kind.tag := by
  unfold intern
  split <;> simp

/-- Changing how names are held keeps what is a directive. -/
@[simp] theorem isDirective_map {ν μ : Type} (f : ν → μ) (kind : TokenKind ν) :
    (kind.map f).isDirective = kind.isDirective := by
  cases kind <;> rfl

/-- Interning keeps what is a directive. -/
@[simp] theorem isDirective_intern (kind : TokenKind String) (table : NameTable) :
    (kind.intern table).1.isDirective = kind.isDirective := by
  unfold intern
  split <;> exact isDirective_map _ _

/-- Changing how names are held changes the name that is carried, if one is. -/
@[simp] theorem name?_map {ν μ : Type} (f : ν → μ) (kind : TokenKind ν) :
    (kind.map f).name? = kind.name?.map f := by
  cases kind <;> rfl

end TokenKind

end Vibescript
