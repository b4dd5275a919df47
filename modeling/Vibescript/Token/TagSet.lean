import Vibescript.Token.Tag

/-!
# Sets of token tags

A set of tags is a natural number with one bit for each member, so that equal sets are equal
as data. Sets say which tokens would have been accepted and where recovery stops.
-/
namespace Vibescript

/-- A set of tags. -/
structure TagSet where
  /-- The bit at a tag's place says whether the tag is a member. -/
  bits : Nat
  deriving DecidableEq, Repr, Inhabited

namespace TagSet

/-- No tag. -/
def empty : TagSet := ⟨0⟩

/-- Add a tag. -/
def insert (set : TagSet) (tag : Tag) : TagSet := ⟨set.bits ||| 1 <<< tag.index⟩

/-- One tag. -/
def singleton (tag : Tag) : TagSet := empty.insert tag

/-- The tags of a list. -/
def ofList (tags : List Tag) : TagSet := tags.foldl insert empty

/-- The tags in either set. -/
def union (left right : TagSet) : TagSet := ⟨left.bits ||| right.bits⟩

/-- Whether a tag is a member. -/
def contains (set : TagSet) (tag : Tag) : Bool := set.bits.testBit tag.index

/-- Whether there is no member. -/
def isEmpty (set : TagSet) : Bool := set.bits == 0

/-- The members in tag order. -/
def toList (set : TagSet) : List Tag := Tag.all.filter set.contains

/-- Number of members. -/
def size (set : TagSet) : Nat := set.toList.length

/-- The members as prose: one, two joined by a word, or a list. -/
def describe (set : TagSet) : String :=
  match set.toList.map Tag.description with
  | [] => ""
  | [only] => only
  | [first, second] => s!"{first} or {second}"
  | many => "one of " ++ String.intercalate ", " many

/-- The empty set has no member. -/
@[simp] theorem contains_empty (tag : Tag) : empty.contains tag = false := by
  simp [empty, contains]

/-- Adding a tag makes it, and no other tag, a member. -/
@[simp] theorem contains_insert (set : TagSet) (tag other : Tag) :
    (set.insert tag).contains other = (set.contains other || decide (tag = other)) := by
  simp only [insert, contains, Nat.testBit_or, Nat.one_shiftLeft, Nat.testBit_two_pow]
  congr 1
  exact decide_eq_decide.mpr ⟨Tag.index_injective, fun same => same ▸ rfl⟩

/-- A union has the members of both sets. -/
@[simp] theorem contains_union (left right : TagSet) (tag : Tag) :
    (left.union right).contains tag = (left.contains tag || right.contains tag) := by
  simp [union, contains]

/-- A single tag is the only member. -/
@[simp] theorem contains_singleton (tag other : Tag) :
    (singleton tag).contains other = decide (tag = other) := by
  simp [singleton]

/-- The members are what is listed. -/
@[simp] theorem mem_toList {set : TagSet} {tag : Tag} :
    tag ∈ set.toList ↔ set.contains tag = true := by
  simp [toList, Tag.mem_all]

/-- Folding insertion over a list adds the tags of the list. -/
theorem contains_foldl_insert (tags : List Tag) (set : TagSet) (tag : Tag) :
    (tags.foldl insert set).contains tag = (set.contains tag || decide (tag ∈ tags)) := by
  induction tags generalizing set with
  | nil => simp
  | cons head tail ih => simp [ih, Bool.or_assoc, eq_comm]

/-- The set of a list has the tags of the list. -/
@[simp] theorem contains_ofList (tags : List Tag) (tag : Tag) :
    (ofList tags).contains tag = decide (tag ∈ tags) := by
  simp [ofList, contains_foldl_insert]

end TagSet

end Vibescript
