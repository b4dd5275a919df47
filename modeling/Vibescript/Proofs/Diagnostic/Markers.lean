import Vibescript.Diagnostic.Terminal
import Vibescript.Proofs.Diagnostic.Positions

/-!
# The markers under a label

Markers start under the first character of a label. They are as many as its characters when it ends
on the line it starts on; a label that goes on over further lines has a single marker, however much
of it stands on the first one.
-/
namespace Vibescript

namespace Terminal

open Text LineTable

/-- Number of markers under a text. -/
def markerCount (text : List Char) : Nat := if '\n' ∈ text then 1 else max 1 text.length

/-- The markers cover what a text has on its first line, but for a text of more lines with more than
one character on the first. -/
theorem markerCount_eq_iff (text : List Char) :
    markerCount text = max 1 (text.takeWhile (· ≠ '\n')).length ↔
      '\n' ∉ text ∨ (text.takeWhile (· ≠ '\n')).length ≤ 1 := by
  by_cases feed : '\n' ∈ text
  · rw [markerCount, if_pos feed]
    simp only [feed, not_true, false_or]
    omega
  · have all : text.takeWhile (· ≠ '\n') = text :=
      List.takeWhile_eq_self_iff.mpr fun char member =>
        decide_eq_true fun isFeed => feed (isFeed ▸ member)
    rw [markerCount, if_neg feed, all]
    simp [feed]

/-- The markers of a label are counted from the positions of its ends. -/
theorem markerWidth_position (before middle after : List Char) :
    markerWidth ((ofSource (before ++ middle ++ after)).position (byteLength before))
        ((ofSource (before ++ middle ++ after)).position (byteLength (before ++ middle))) =
      markerCount middle := by
  have start := position_ofSource before (middle ++ after)
  rw [← List.append_assoc] at start
  rw [start, position_ofSource (before ++ middle) after, markerWidth, markerCount,
    List.count_append]
  simp only
  by_cases feed : '\n' ∈ middle
  · have positive := List.count_pos_iff.mpr feed
    rw [if_pos feed, if_neg (by omega)]
  · rw [if_neg feed, List.count_eq_zero.mpr feed, lastLine_append feed, List.length_append]
    split <;> omega

/-- The snippet of a label: the line on which it starts, and under it the markers, indented by what
stands before the label on that line. -/
theorem snippet_ofSource (colored : Bool) (path : String) (before middle after : List Char)
    (message : String) (isPrimary : Bool) :
    let terminal : Terminal := ⟨colored, path, ofSource (before ++ middle ++ after)⟩
    let number := toString (before.count '\n' + 1)
    let gutter := repeated ' ' number.length ++ " |"
    let text := String.ofList
      (dropCarriageReturn (lastLine before ++ (middle ++ after).takeWhile (· ≠ '\n')))
    let marker := if isPrimary then '^' else '-'
    let paint := if isPrimary then Paint.error else Paint.related
    terminal.snippet ⟨⟨byteLength before, byteLength (before ++ middle)⟩, message, isPrimary⟩ =
        gutter ++ "\n" ++
          number ++ " |" ++ (if text.isEmpty then "" else " " ++ text) ++ "\n" ++
          gutter ++ " " ++ repeated ' ' (lastLine before).length ++
          terminal.painted paint (repeated marker (markerCount middle) ++ " " ++ message) ++ "\n" ∧
      (markerCount middle = max 1 (middle.takeWhile (· ≠ '\n')).length ↔
        '\n' ∉ middle ∨ (middle.takeWhile (· ≠ '\n')).length ≤ 1) := by
  have width := markerWidth_position before middle after
  have start := position_ofSource before (middle ++ after)
  have line := lineText_ofSource before (middle ++ after)
  rw [← List.append_assoc] at start line
  refine ⟨?_, markerCount_eq_iff middle⟩
  simp only [snippet, width]
  simp only [start, line, Nat.add_sub_cancel]

/-- A string without an end has one marker, although four of its characters stand on the line. -/
example : (Terminal.mk false "a.vibe" (ofSource "x = \"abc\ndef".toList)).snippet
    ⟨⟨4, 12⟩, "invalid token", true⟩ = "  |\n1 | x = \"abc\n  |     ^ invalid token\n" := by
  decide +kernel

end Terminal

end Vibescript
