import Vibescript.Proofs.Source.Quotation

/-!
# The errors in a text

Every error of the lexer stands in the text that was read: at the piece that it was found in or,
where a string literal has no end, at the quotation mark that opens it.
-/
namespace Vibescript

/-- Reading never finds the end of a string literal that has none. -/
theorem Content.unterminated_ne_read (mode : Mode) (before : Option Char) (first : Char)
    (rest : List Char) (opening : Nat) : (read mode before first rest).1 ≠ .unterminated opening := by
  cases mode with
  | code => exact (isCode_inCode before first rest).closing opening
  | string start =>
    show (inString first rest).1 ≠ .unterminated opening
    unfold inString
    split
    · nofun
    split
    · split
      · nofun
      · split <;> nofun
    · nofun

/-- A literal that goes on after a piece begins with it or went on before it. -/
theorem Content.opened_of_modeAfter {content : Content} {offset opening : Nat} {mode : Mode}
    (inside : content.modeAfter offset mode = .string opening) :
    offset = opening ∨ mode = .string opening := by
  cases content with
  | token kind =>
    cases kind with
    | stringOpen => exact .inl (Mode.string.inj inside)
    | stringClose => contradiction
    | _ => exact .inr inside
  | unterminated => contradiction
  | _ => exact .inr inside

namespace Piece

/-- The errors in a text. -/
def faults (source : List Char) : List LexicalError := (list source).filterMap error?

/-- A string literal without an end opens before it breaks off. -/
theorem opening_le_listFrom (passed : Nat) (mode : Mode) (before : Option Char) (offset : Nat)
    (text : List Char) (opened : ∀ opening, mode = .string opening → opening ≤ offset) :
    ∀ piece ∈ listFrom passed mode before offset text, ∀ opening,
      piece.content = .unterminated opening → opening ≤ piece.start := by
  induction text generalizing passed mode before offset with
  | nil =>
    intro piece member opening broken
    cases mode with
    | code => simp [listFrom] at member
    | string start =>
      obtain rfl : piece = ⟨offset, [], .unterminated start⟩ := by simpa [listFrom] using member
      obtain rfl := Content.unterminated.inj broken
      exact opened start rfl
  | cons char rest ih =>
    cases passed with
    | succ more =>
      exact ih more mode _ _ fun opening same => Nat.le_add_right_of_le (opened opening same)
    | zero =>
      intro piece member opening broken
      rcases List.mem_cons.mp member with rfl | later
      · exact absurd broken (Content.unterminated_ne_read mode before char rest opening)
      · refine ih _ _ _ _ (fun opening same => Nat.le_add_right_of_le ?_) piece later opening broken
        obtain rfl | before := Content.opened_of_modeAfter same
        · exact Nat.le_refl _
        · exact opened opening before

/-- The errors in a text start in it. -/
theorem start_le_of_mem_faults {source : List Char} {error : LexicalError}
    (member : error ∈ faults source) : error.span.start ≤ Text.byteLength source := by
  obtain ⟨piece, inList, isError⟩ := List.mem_filterMap.mp member
  obtain ⟨before, after, whole, start⟩ := (lies_listFrom _ _ _ _ _ piece inList).within
  have inside : piece.start ≤ Text.byteLength source := by
    rw [whole, Text.byteLength_append, Text.byteLength_append]
    omega
  have opened := opening_le_listFrom 0 .code none 0 source (fun _ => nofun) piece inList
  cases content : piece.content <;> rw [error?, content] at isError <;>
    simp only [Option.some.injEq, reduceCtorEq] at isError <;> subst isError
  case unterminated opening => exact Nat.le_trans (opened opening content) inside
  all_goals exact inside

end Piece

end Vibescript
