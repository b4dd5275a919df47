import Vibescript.Span

/-!
# Byte offsets into text

Texts are lists of characters; positions in them are counted in UTF-8 bytes. This module
measures a text in bytes and cuts it at byte offsets. A cut that would split a character, or
that lies past the end, is refused.
-/
namespace Vibescript.Text

/-- Number of bytes that UTF-8 takes for a text. -/
def byteLength : List Char → Nat
  | [] => 0
  | char :: rest => char.utf8Size + byteLength rest

@[simp] theorem byteLength_nil : byteLength [] = 0 := rfl

@[simp] theorem byteLength_cons (char : Char) (rest : List Char) :
    byteLength (char :: rest) = char.utf8Size + byteLength rest := rfl

@[simp] theorem byteLength_append (left right : List Char) :
    byteLength (left ++ right) = byteLength left + byteLength right := by
  induction left with
  | nil => rw [List.nil_append, byteLength_nil, Nat.zero_add]
  | cons char rest ih => rw [List.cons_append, byteLength_cons, byteLength_cons, ih, Nat.add_assoc]

/-- The text after its first `count` bytes, when a character ends there. -/
def dropBytes? : Nat → List Char → Option (List Char)
  | 0, text => some text
  | _ + 1, [] => none
  | count + 1, char :: rest =>
    if char.utf8Size ≤ count + 1 then dropBytes? (count + 1 - char.utf8Size) rest else none

/-- The first `count` bytes of a text, when a character ends there. -/
def takeBytes? : Nat → List Char → Option (List Char)
  | 0, _ => some []
  | _ + 1, [] => none
  | count + 1, char :: rest =>
    if char.utf8Size ≤ count + 1 then
      (takeBytes? (count + 1 - char.utf8Size) rest).map (char :: ·)
    else none

/-- The characters under a span; none when the span is reversed, lies past the end, or has an
end inside a character. -/
def slice? (text : List Char) (span : Span) : Option (List Char) :=
  if span.start ≤ span.stop then
    (dropBytes? span.start text).bind (takeBytes? (span.stop - span.start))
  else none

/-- The text under a span, empty where there is none. -/
def slice (text : List Char) (span : Span) : List Char := (slice? text span).getD []

/-- Dropping the bytes of a first part leaves the second. -/
theorem dropBytes?_append (left right : List Char) :
    dropBytes? (byteLength left) (left ++ right) = some right := by
  induction left with
  | nil => simp [dropBytes?]
  | cons char rest ih =>
    have positive := Char.utf8Size_pos char
    obtain ⟨count, size⟩ : ∃ count, char.utf8Size + byteLength rest = count + 1 :=
      ⟨char.utf8Size + byteLength rest - 1, by omega⟩
    have room : char.utf8Size ≤ count + 1 := by omega
    have left : count + 1 - char.utf8Size = byteLength rest := by omega
    simp [size, dropBytes?, room, left, ih]

/-- Taking the bytes of a first part gives that part. -/
theorem takeBytes?_append (left right : List Char) :
    takeBytes? (byteLength left) (left ++ right) = some left := by
  induction left with
  | nil => simp [takeBytes?]
  | cons char rest ih =>
    have positive := Char.utf8Size_pos char
    obtain ⟨count, size⟩ : ∃ count, char.utf8Size + byteLength rest = count + 1 :=
      ⟨char.utf8Size + byteLength rest - 1, by omega⟩
    have room : char.utf8Size ≤ count + 1 := by omega
    have left : count + 1 - char.utf8Size = byteLength rest := by omega
    simp [size, takeBytes?, room, left, ih]

/-- The span of a middle part reads that part. -/
theorem slice?_middle (before middle after : List Char) :
    slice? (before ++ middle ++ after)
      ⟨byteLength before, byteLength before + byteLength middle⟩ = some middle := by
  simp [slice?, List.append_assoc, dropBytes?_append, takeBytes?_append]

end Vibescript.Text
