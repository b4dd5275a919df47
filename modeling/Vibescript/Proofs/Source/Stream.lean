import Vibescript.Proofs.Cursor.Pending

/-!
# The tokens of a lexer

Reading a whole source text hands out the tokens of its pieces in their order, and then the end
of the text once. Names are written out, since the same text may have another number in another
table.
-/
namespace Vibescript

/-- The tokens that were handed out, with their names written out. -/
def LexOutput.written (output : LexOutput) : List (Token String) :=
  output.tokens.map (Token.written output.lexer.names)

/-- What a lexer hands out from some pieces of the text. -/
structure Lexer.Hands (before : Lexer) (pieces : List Piece) (token : Token Name)
    (after : Lexer) : Prop where
  /-- The text stays. -/
  source : after.source = before.source
  /-- Names are added. -/
  names : before.names.Grows after.names
  /-- The names stay sound. -/
  sound : after.names.Sound
  /-- The table holds the name of the token. -/
  known : token.kind.Known after.names
  /-- The token is the end of the text, or the first token of the pieces. -/
  found : (token = before.endToken ∧ Piece.tokens pieces = []) ∨
    (after.pieces.length < pieces.length ∧
      Piece.tokens pieces = token.written after.names :: Piece.tokens after.pieces)

/-- A lexer hands out the first token of its pieces, or the end of the text. -/
theorem Lexer.hands_nextIn (lexer : Lexer) (pieces : List Piece) (sound : lexer.names.Sound) :
    lexer.Hands pieces (lexer.nextIn pieces).1 (lexer.nextIn pieces).2 := by
  induction pieces generalizing lexer with
  | nil =>
    exact ⟨rfl, .refl _, sound, TokenKind.known_of_name?_eq_none rfl _, .inl ⟨rfl, rfl⟩⟩
  | cons piece rest ih =>
    rw [nextIn, read]
    cases isKind : piece.kind? with
    | none =>
      have hands := ih (lexer.pass piece rest) sound
      refine ⟨hands.source, hands.names, hands.sound, hands.known, ?_⟩
      rw [Piece.tokens_skip isKind]
      exact hands.found.imp id fun found => ⟨Nat.lt_succ_of_lt found.1, found.2⟩
    | some kind =>
      refine ⟨rfl, kind.grows_intern lexer.names, kind.sound_intern sound,
        kind.known_intern sound, .inr ⟨Nat.lt_succ_self _, ?_⟩⟩
      have written := Token.written_intern sound kind piece.span
      rw [Piece.tokens_cons isKind]
      exact congrArg (· :: _) written.symm

/-- After the end of the text a stream hands out nothing. -/
theorem TokenStream.take_done (count : Nat) (lexer : Lexer) :
    (TokenStream.mk lexer true).take count = ([], ⟨lexer, true⟩) := by
  cases count <;> rfl

/-- A stream hands out every token of its text and then the end. -/
theorem TokenStream.written_take (count : Nat) (lexer : Lexer) (sound : lexer.names.Sound)
    (real : ∀ token ∈ Piece.tokens lexer.pieces, token.kind ≠ .endOfInput)
    (enough : lexer.pieces.length < count) :
    lexer.names.Grows ((TokenStream.mk lexer false).take count).2.lexer.names ∧
      ((TokenStream.mk lexer false).take count).1.map
          (Token.written ((TokenStream.mk lexer false).take count).2.lexer.names) =
        Piece.tokens lexer.pieces ++ [⟨.endOfInput, .point lexer.length⟩] := by
  induction count generalizing lexer with
  | zero => exact absurd enough (Nat.not_lt_zero _)
  | succ count ih =>
    have hands := lexer.hands_nextIn lexer.pieces sound
    rw [take, next?]
    simp only [Bool.false_eq_true, if_false, Lexer.next]
    generalize lexer.nextIn lexer.pieces = result at hands ⊢
    obtain ⟨token, after⟩ := result
    dsimp only at hands ⊢
    obtain ⟨rfl, empty⟩ | ⟨shorter, whole⟩ := hands.found
    · have isEnd : (lexer.endToken.tag == .endOfInput) = true := rfl
      rw [isEnd, take_done, empty]
      exact ⟨hands.names, rfl⟩
    · have notEnd : token.tag ≠ .endOfInput := by
        have written := real (token.written after.names) (whole ▸ List.mem_cons_self)
        rintro same
        rw [← Token.tag_written after.names] at same
        exact written (TokenKind.eq_endOfInput same)
      obtain ⟨grows, rest⟩ := ih after hands.sound
        (fun other member => real other (whole ▸ List.mem_cons_of_mem _ member)) (by omega)
      rw [beq_false_of_ne notEnd]
      refine ⟨hands.names.trans grows, ?_⟩
      rw [List.map_cons, rest, Token.written_grows grows hands.known, whole, Lexer.length,
        Lexer.length, hands.source]
      rfl

/-- Reading a source text hands out its tokens and then the end of the text. -/
theorem written_lex (source : String) :
    (lex source).written = Piece.tokens (Piece.list source.toList) ++
      [⟨.endOfInput, .point (Text.byteLength source.toList)⟩] :=
  (TokenStream.written_take _ (Lexer.ofSource source) NameTable.sound_initial
    (fun _ member => (Piece.stands_of_mem_tokens member).notEnd) (Nat.lt_succ_self _)).2

/-- Without the end, these are the tokens of the text. -/
theorem filter_written_lex (source : String) :
    ((lex source).written.filter fun token => token.tag ≠ .endOfInput) =
      Piece.tokens (Piece.list source.toList) := by
  rw [written_lex, List.filter_append]
  have real : (Piece.tokens (Piece.list source.toList)).filter
      (fun token => token.tag ≠ .endOfInput) = Piece.tokens (Piece.list source.toList) :=
    List.filter_eq_self.mpr fun token member => decide_eq_true fun isEnd =>
      (Piece.stands_of_mem_tokens member).notEnd (TokenKind.eq_endOfInput isEnd)
  rw [real]
  exact List.append_nil _

end Vibescript
