import Vibescript.Proofs.Source.Faults
import Vibescript.Proofs.Source.Stream

/-!
# What a lexer records

A lexer records the error and the comment of each piece that it passes over. So when it has handed
out all tokens of a text, it has recorded all errors and comments of the text, in their order.
-/
namespace Vibescript

/-- The comment that a piece is, if it is one. -/
def Piece.comment? (piece : Piece) : Option Comment :=
  match piece.content with
  | .comment => some ⟨piece.span, String.ofList piece.text⟩
  | _ => none

namespace Lexer

/-- All comments of the text, those that were met and those of the pieces still to be read. -/
def remarks (lexer : Lexer) : List Comment :=
  lexer.comments.toList ++ lexer.pieces.filterMap Piece.comment?

variable {lexer : Lexer} {piece : Piece} {rest : List Piece}

/-- Passing over a piece records its error. -/
theorem faults_pass (lexer : Lexer) (piece : Piece) (rest : List Piece) :
    (lexer.pass piece rest).faults =
      lexer.errors.toList ++ (piece :: rest).filterMap Piece.error? := by
  have recorded : (lexer.pass piece rest).errors.toList =
      lexer.errors.toList ++ piece.error?.toList := by
    rw [pass]
    cases piece.error? <;> simp
  rw [faults, recorded, List.append_assoc]
  cases isError : piece.error? <;> simp [pass, isError]

/-- Passing over a piece records its comment. -/
theorem remarks_pass (lexer : Lexer) (piece : Piece) (rest : List Piece) :
    (lexer.pass piece rest).remarks =
      lexer.comments.toList ++ (piece :: rest).filterMap Piece.comment? := by
  have recorded : (lexer.pass piece rest).comments.toList =
      lexer.comments.toList ++ piece.comment?.toList := by
    rw [pass, Piece.comment?]
    cases piece.content <;> simp
  rw [remarks, recorded, List.append_assoc]
  cases isComment : piece.comment? <;> simp [pass, isComment]

/-- Handing out a token loses no error and no comment. -/
theorem recorded_nextIn (lexer : Lexer) (pieces : List Piece) :
    (lexer.nextIn pieces).2.faults = lexer.errors.toList ++ pieces.filterMap Piece.error? ∧
      (lexer.nextIn pieces).2.remarks =
        lexer.comments.toList ++ pieces.filterMap Piece.comment? := by
  induction pieces generalizing lexer with
  | nil => exact ⟨rfl, rfl⟩
  | cons piece rest ih =>
    have faults := lexer.faults_pass piece rest
    have remarks := lexer.remarks_pass piece rest
    rw [nextIn, read]
    cases piece.kind? with
    | none =>
      obtain ⟨laterFaults, laterRemarks⟩ := ih (lexer.pass piece rest)
      exact ⟨laterFaults.trans faults, laterRemarks.trans remarks⟩
    | some kind => exact ⟨faults, remarks⟩

/-- A lexer that finds no token among its pieces has passed over all of them. -/
theorem pieces_nextIn (lexer : Lexer) (pieces : List Piece) (empty : Piece.tokens pieces = []) :
    (lexer.nextIn pieces).2.pieces = [] := by
  induction pieces generalizing lexer with
  | nil => rfl
  | cons piece rest ih =>
    rw [nextIn, read]
    cases isKind : piece.kind? with
    | none =>
      exact ih _ (Piece.tokens_skip isKind rest ▸ empty)
    | some kind =>
      rw [Piece.tokens_cons isKind] at empty
      contradiction

end Lexer

/-- A stream that hands out every token records every error and every comment. -/
theorem TokenStream.recorded_take (count : Nat) (lexer : Lexer) (sound : lexer.names.Sound)
    (enough : lexer.pieces.length < count)
    (real : ∀ token ∈ Piece.tokens lexer.pieces, token.kind ≠ .endOfInput) :
    ((TokenStream.mk lexer false).take count).2.lexer.errors.toList = lexer.faults ∧
      ((TokenStream.mk lexer false).take count).2.lexer.comments.toList = lexer.remarks := by
  induction count generalizing lexer with
  | zero => exact absurd enough (Nat.not_lt_zero _)
  | succ count ih =>
    have hands := lexer.hands_nextIn lexer.pieces sound
    have recorded := lexer.recorded_nextIn lexer.pieces
    have emptied := lexer.pieces_nextIn lexer.pieces
    rw [take, next?]
    simp only [Bool.false_eq_true, if_false, Lexer.next]
    generalize lexer.nextIn lexer.pieces = result at hands recorded emptied ⊢
    obtain ⟨token, after⟩ := result
    dsimp only at hands recorded emptied ⊢
    obtain ⟨rfl, empty⟩ | ⟨shorter, whole⟩ := hands.found
    · have isEnd : (lexer.endToken.tag == .endOfInput) = true := rfl
      have none := emptied empty
      rw [isEnd, take_done]
      constructor
      · rw [Lexer.faults, ← recorded.1, Lexer.faults, none]
        simp
      · rw [Lexer.remarks, ← recorded.2, Lexer.remarks, none]
        simp
    · have notEnd : token.tag ≠ .endOfInput := by
        have written := real (token.written after.names) (whole ▸ List.mem_cons_self)
        intro same
        rw [← Token.tag_written after.names] at same
        exact written (TokenKind.eq_endOfInput same)
      have later := ih after hands.sound (by omega)
        fun other member => real other (whole ▸ List.mem_cons_of_mem _ member)
      rw [beq_false_of_ne notEnd, later.1, later.2]
      exact recorded

/-- Reading a source text records its errors and its comments. -/
theorem recorded_lex (source : String) :
    (lex source).lexer.errors.toList = Piece.faults source.toList ∧
      (lex source).lexer.comments.toList =
        (Piece.list source.toList).filterMap Piece.comment? :=
  TokenStream.recorded_take _ (Lexer.ofSource source) NameTable.sound_initial (Nat.lt_succ_self _)
    fun _ member => (Piece.stands_of_mem_tokens member).notEnd

end Vibescript
