/-!
# Source spans

A span is a half-open range of byte offsets into the source text of one parse. Offsets are
natural numbers; `Span.ofRange` admits those that fit 32 bits, the width that a front end
promises its clients.
-/
namespace Vibescript

/-- A half-open range of byte offsets. -/
structure Span where
  /-- Offset of the first byte. -/
  start : Nat
  /-- Offset just past the last byte. -/
  stop : Nat
  deriving DecidableEq, Repr, Inhabited

/-- Why a byte range is no span: one of its ends does not fit 32 bits. -/
inductive SpanError where
  /-- The first offset is too large. -/
  | startTooLarge (offset : Nat)
  /-- The last offset is too large. -/
  | endTooLarge (offset : Nat)
  deriving DecidableEq, Repr

/-- The wording of a refusal. -/
def SpanError.message : SpanError → String
  | startTooLarge offset => s!"span start {offset} exceeds u32::MAX"
  | endTooLarge offset => s!"span end {offset} exceeds u32::MAX"

namespace Span

/-- The least number that is no offset. -/
def offsetLimit : Nat := UInt32.size

/-- Admit a byte range; the start is checked first. -/
def ofRange (start stop : Nat) : Except SpanError Span :=
  if offsetLimit ≤ start then .error (.startTooLarge start)
  else if offsetLimit ≤ stop then .error (.endTooLarge stop)
  else .ok ⟨start, stop⟩

/-- The empty span at an offset. -/
def point (offset : Nat) : Span := ⟨offset, offset⟩

/-- Number of bytes; a reversed span has none to count. -/
def length? (span : Span) : Option Nat :=
  if span.start ≤ span.stop then some (span.stop - span.start) else none

/-- Whether the two ends coincide. -/
def isEmpty (span : Span) : Bool := span.start == span.stop

/-- Whether an offset lies in the span. -/
def contains (span : Span) (offset : Nat) : Bool :=
  span.start ≤ offset && offset < span.stop

/-- Whether another span lies in this one. -/
def covers (span other : Span) : Bool :=
  span.start ≤ other.start && other.stop ≤ span.stop

/-- The two offsets with two points between them. -/
protected def toString (span : Span) : String := s!"{span.start}..{span.stop}"

instance : ToString Span := ⟨Span.toString⟩

/-- A point is empty. -/
theorem isEmpty_point (offset : Nat) : (point offset).isEmpty = true := by
  simp [isEmpty, point]

end Span

end Vibescript
