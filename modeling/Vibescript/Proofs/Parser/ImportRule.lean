import Vibescript.Proofs.Parser.Continuation
import Vibescript.Proofs.Parser.ErrorOrder
import Vibescript.Proofs.Parser.Sequence

/-!
# Imports and the calls in their place

Where the import function is called by another name, an import is an assignment of a call. An import
ends at the end of its line, whatever the next line begins with, but a call goes on there with a token
that goes on with an expression. A subscript and a minus sign start a statement as well. The other
such tokens start none; after an import on an earlier line they are errors.
-/
namespace Vibescript

open Build Parse Grammar

/-- A token goes on with an expression and starts none, and an import ends right before it, on an
earlier line. -/
structure Token.BreaksImport (source : String) (token : Token String) : Prop where
  /-- It goes on with an expression. -/
  continues : Lookahead.continuesExpression token.tag = true
  /-- It starts none. -/
  startsNone : TagSet.expressionStart.contains token.tag = false
  /-- An import, of which these are the tokens after the target, ends on an earlier line. -/
  follows : ∃ before imported close after target path localName,
    Token.ordinary (Parser.sourceTokens source) = before ++ imported ++ close :: token :: after ∧
      (imported ++ [close]).map Token.kind = (importKinds target path localName).tail ∧
      IsText path ∧ (∀ pieces ∈ localName, IsText pieces) ∧
      (Text.slice source.toList ⟨close.span.stop, token.span.start⟩).contains '\n' = true

/-- An expression was expected at a token that breaks an import. -/
def ParseError.BreaksImport (source : String) (error : ParseError) : Prop :=
  ∃ token : Token String, token.BreaksImport source ∧ error.code = .expectedExpression ∧
    error.found = some token.tag ∧ error.span = token.span

/-- The tags of an import. -/
theorem Tag.map_importKinds (target : String) (path : List (TokenKind String))
    (localName : Option (List (TokenKind String))) :
    (importKinds target path localName).map TokenKind.tag =
      Tag.ofImport (path.map TokenKind.tag) (localName.map (·.map TokenKind.tag)) := by
  cases localName <;>
    simp [importKinds, stringKinds, localNameKinds, ofImport, ofCall, ofString, ofLocalName,
      TokenKind.tag]

/-- The tags of what stands between quotation marks. -/
theorem Tag.arePieces_map {pieces : List (TokenKind String)} (isText : IsText pieces) :
    ArePieces (pieces.map TokenKind.tag) := by
  intro tag member
  obtain ⟨piece, isPiece, rfl⟩ := List.mem_map.mp member
  have text := isText piece isPiece
  cases piece <;> first | exact .inl rfl | exact .inr rfl | contradiction

namespace Lookahead

variable {source : List Char} {tokens : List (Token String)}

/-- The tokens of an import, and those after it. -/
theorem IsImport.exists_tokens (isImport : IsImport source tokens) :
    ∃ before close rest target path localName,
      Token.ordinary tokens = before ++ close :: rest ∧
      (before ++ [close]).map Token.kind = importKinds target path localName ∧
      IsText path ∧ (∀ pieces ∈ localName, IsText pieces) ∧
      ∀ next ∈ rest.head?, continuesExpression next.tag = true →
        (Text.slice source ⟨close.span.stop, next.span.start⟩).contains '\n' = true := by
  obtain ⟨target, path, localName, last, isPath, isLocal, ⟨closes, ends⟩, whole⟩ :=
    isImport.exists_kinds
  have inside : last < (Token.kinds tokens).length := by
    by_contra outside
    rw [List.drop_eq_nil_of_le (Nat.le_of_not_lt outside)] at closes
    contradiction
  have count : (importKinds target path localName).length = last + 1 := by
    have lengths := congrArg List.length whole
    rw [List.length_append, List.length_drop] at lengths
    omega
  rw [Token.kinds, List.length_map] at inside
  refine ⟨(Token.ordinary tokens).take last, (Token.ordinary tokens)[last],
    (Token.ordinary tokens).drop (last + 1), target, path, localName, ?_, ?_, isPath, isLocal, ?_⟩
  · rw [List.getElem_cons_drop, List.take_append_drop]
  · rw [List.take_append_getElem inside, List.map_take]
    have first := congrArg (List.take (last + 1)) whole
    rwa [List.take_left' count] at first
  · intro next isNext continues
    rw [List.head?_drop] at isNext
    have isTag : continuesExpression (TokenKind.tagAt (Token.kinds tokens) (last + 1)) = true := by
      rw [TokenKind.tagAt, Token.kinds, List.getElem?_map, isNext]
      exact continues
    obtain ⟨close, later, isClose, isLater, breaks⟩ := ends isTag
    rw [List.getElem?_eq_getElem inside] at isClose
    rw [isNext] at isLater
    rwa [Option.some.inj isClose, Option.some.inj isLater]

end Lookahead

/-- A respelled token does not name the import function. -/
theorem TokenKind.respelled_ne (kind : TokenKind String) : kind.respelled ≠ .identifier "require" := by
  unfold respelled
  split
  · exact fun same => absurd (identifier.inj same) (by decide)
  · next other => exact other

/-- A token after an import breaks it. -/
theorem Token.breaksImport {source : String} {before after : List (Token String)}
    {close token : Token String} {target : String} {path : List (TokenKind String)}
    {localName : Option (List (TokenKind String))}
    (isImport : (before ++ [close]).map Token.kind = importKinds target path localName)
    (isPath : IsText path) (isLocal : ∀ pieces ∈ localName, IsText pieces)
    (later : (before ++ close :: token :: after).tail <:+
      Token.ordinary (Parser.sourceTokens source))
    (continues : Lookahead.continuesExpression token.tag = true)
    (startsNone : TagSet.expressionStart.contains token.tag = false)
    (breaks : (Text.slice source.toList ⟨close.span.stop, token.span.start⟩).contains '\n' = true) :
    token.BreaksImport source := by
  cases before with
  | nil => simp [importKinds] at isImport
  | cons name imported =>
    obtain ⟨earlier, whole⟩ := later
    refine ⟨continues, startsNone, earlier, imported, close, after, target, path, localName, ?_, ?_,
      isPath, isLocal, breaks⟩
    · rw [← whole, List.cons_append, List.tail_cons, List.append_assoc]
    · rw [← isImport]
      rfl

namespace Parser.Unspoilt

variable {source : String} {soft : SoftNames} {rounds : Nat} {parser : Parser}
  {left : List (Token String)}

/-- The question whether an import starts has an answer, and the tokens are left. -/
theorem asks_startsImport (unspoilt : parser.Unspoilt source soft rounds left) :
    (parser.withCursor
      (Lookahead.startsImport soft.importName soft.asKey parser.cursor).2).Unspoilt source soft
        rounds left ∧
      ((Lookahead.startsImport soft.importName soft.asKey parser.cursor).1 = true →
        ∃ tokens, Lookahead.IsImport source.toList tokens ∧ Token.ordinary tokens = left) := by
  refine ⟨unspoilt.looks (Lookahead.Peeks.startsImport _ _ parser.cursor), fun starts => ?_⟩
  obtain ⟨tokens, pending, isLeft⟩ := unspoilt.sees
  have isImport : (soft.importName, "require") ∈ soft.spelling := by simp [SoftNames.spelling_eq]
  have isAs : (soft.asKey, "as") ∈ soft.spelling := by simp [SoftNames.spelling_eq]
  obtain ⟨_, tells⟩ := Lookahead.tells_startsImport isImport isAs parser.cursor unspoilt.text pending
    unspoilt.knows
  exact ⟨tokens, tells starts, isLeft⟩

/-- No import starts in a respelled text. -/
theorem startsNoImport (unspoilt : parser.Unspoilt (respell source) soft rounds left) :
    (Lookahead.startsImport soft.importName soft.asKey parser.cursor).1 = false := by
  by_contra starts
  rw [Bool.not_eq_false] at starts
  obtain ⟨tokens, isImport, rfl⟩ := unspoilt.asks_startsImport.2 starts
  obtain ⟨target, _, shape, _⟩ := isImport
  have first : TokenKind.tagAt ((Token.ordinary tokens).map Token.kind) 0 ≠ .colon := by
    rw [show (Token.ordinary tokens).map Token.kind = _ from shape]
    exact Tag.noConfusion
  have member : .identifier "require" ∈ (Token.ordinary tokens).tail.map Token.kind := by
    rw [List.map_tail, show (Token.ordinary tokens).map Token.kind = _ from shape]
    simp
  obtain ⟨token, isToken, isKind⟩ := List.mem_map.mp member
  have inText := List.mem_of_mem_filter ((unspoilt.remains.suffix first).subset isToken)
  have inKinds : token.kind ∈ (sourceTokens (respell source)).map Token.kind :=
    List.mem_map_of_mem inText
  rw [sourceTokens, Piece.kinds_respell] at inKinds
  obtain ⟨kind, _, same⟩ := List.mem_map.mp inKinds
  exact kind.respelled_ne (same.trans isKind)

/-- An expression is missing at the first token that is left. -/
theorem breaksImport_missing {token : Token String} {after : List (Token String)}
    (unspoilt : parser.Unspoilt source soft rounds (token :: after))
    (breaks : token.BreaksImport source) : parser.missing.BreaksImport source := by
  obtain ⟨_, _, written⟩ := unspoilt.stays
  refine ⟨token, breaks, rfl, ?_, ?_⟩
  · rw [← written, Token.tag_written]
    rfl
  · rw [← written]
    rfl

end Parser.Unspoilt

namespace Grammar

variable {source : String} {options : ParseOptions} {first second : SoftNames} {rounds : Nat}
  {levels others : Nat} {here there : Parser}

/-- A statement that starts with an identifier is an import or an expression. -/
theorem run_plainStatement_name (grammar : Grammar)
    (isName : here.cursor.current.tag = .identifier) {starts : Bool} {asked : Cursor}
    (verdict : Lookahead.startsImport grammar.soft.importName grammar.soft.asKey here.cursor =
      (starts, asked)) :
    grammar.plainStatement.run here =
      (if starts = true then grammar.requireImport else grammar.expression).run
        (here.withCursor asked) := by
  have found : (Build.currentTag here).1 = .identifier := isName
  have asks : Build.ask (Lookahead.startsImport grammar.soft.importName grammar.soft.asKey) here =
      (starts, here.withCursor asked) := by
    show ((Lookahead.startsImport _ _ here.cursor).1,
      here.withCursor (Lookahead.startsImport _ _ here.cursor).2) = _
    rw [verdict]
  rw [plainStatement, run_bind_ok (run_lift _ _), found, if_pos (beq_self_eq_true _)]
  exact run_bind_ok ((run_lift _ here).trans (by rw [asks]))

/-- No statement starts with a token that closes or divides a body. -/
theorem run_plainStatement_end (grammar : Grammar) (other : here.cursor.current.tag ≠ .identifier)
    (ends : TagSet.bodyEnd.contains here.cursor.current.tag = true) :
    ∃ error, grammar.plainStatement.run here = (.error error, here) := by
  have noName : ¬((Build.currentTag here).1 == .identifier) = true := mt eq_of_beq other
  have isEnd : TagSet.bodyEnd.contains (Build.currentTag here).1 = true := ends
  rw [plainStatement, run_bind_ok (run_lift _ _), if_neg noName, if_pos isEnd]
  exact ⟨_, rfl⟩

/-- A statement that starts with another token is an expression. -/
theorem run_plainStatement_other (grammar : Grammar) (other : here.cursor.current.tag ≠ .identifier)
    (starts : TagSet.bodyEnd.contains here.cursor.current.tag = false) :
    grammar.plainStatement.run here = grammar.expression.run here := by
  have noName : ¬((Build.currentTag here).1 == .identifier) = true := mt eq_of_beq other
  have noEnd : ¬TagSet.bodyEnd.contains (Build.currentTag here).1 = true := ne_true_of_eq_false starts
  rw [plainStatement, run_bind_ok (run_lift _ _), if_neg noName, if_neg noEnd]
  rfl

/-- A token that goes on with an expression starts an expression statement, if any. -/
theorem run_statement_continues {grammar : Grammar}
    (continues : Lookahead.continuesExpression here.cursor.current.tag = true) :
    grammar.statement.run here = grammar.expression.run here := by
  have shape : grammar.statementOf here.cursor.current.tag = grammar.plainStatement ∧
      here.cursor.current.tag ≠ .identifier ∧
      TagSet.bodyEnd.contains here.cursor.current.tag = false := by
    generalize here.cursor.current.tag = tag at continues
    cases tag <;> first | contradiction | exact ⟨rfl, by decide, by decide⟩
  obtain ⟨plain, noName, noEnd⟩ := shape
  rw [statement_eq, run_bind_ok (run_lift _ _)]
  show (grammar.statementOf here.cursor.current.tag).run here = _
  rw [plain, run_plainStatement_other grammar noName noEnd]

/-- A call mirrors an expression on the next line, if it goes on there with the token that the
expression starts with. -/
theorem mirrored_call {cuts : ParseError → Prop}
    (mirrors : ∀ fewer ≤ levels, ∀ more ≥ fewer,
      LevelsMirror source options first second rounds cuts fewer more)
    (le : levels ≤ others) {path : List Tag} {localName : Option (List Tag)}
    (isPath : Tag.ArePieces path) (isLocal : ∀ run ∈ localName, Tag.ArePieces run)
    {read tokens rest : List (Token String)}
    (unspoilt : here.Unspoilt (respell source) first rounds (read ++ tokens))
    (isRead : read.map Token.tag = Tag.ofCall path localName)
    (unspoiltOther : there.Unspoilt source second rounds rest)
    (respells : List.Forall₂ (fun token other => TokenKind.Respells token.kind other.kind) tokens rest)
    (starts : there.cursor.current.tag = .leftBracket ∨ there.cursor.current.tag = .minus)
    (outer count : Nat) (target : NodeId) (start : Span) :
    Mirrored (Parser.Tracks source first second rounds) cuts (fun _ _ => True)
      (((level options first rounds levels).expressionFrom .assignment >>= fun right =>
        liftM (close (infixNode .assign target right) start) >>=
          repeatWithin ((level options first rounds outer).infixStep .assignment) count).run here)
      (((level options second rounds others).expressionFrom .assignment).run there) := by
  have sameTag : TokenKind.tagAt (tokens.map Token.kind) 0 = there.cursor.current.tag := by
    rw [unspoiltOther.sees.tag]
    cases respells with
    | nil => rfl
    | cons alike _ => exact alike.tag
  have notBlock : TokenKind.tagAt (tokens.map Token.kind) 0 ≠ .kwDo := by
    rw [sameTag]
    rcases starts with same | same <;> rw [same] <;> exact Tag.noConfusion
  have strings {run : List Tag} {next : Tag} (arePieces : Tag.ArePieces run)
      (separates : next.separates = true) :
      Traverses (respell source) first rounds True (level options first rounds levels).expression
        (Tag.ofString run) next fun _ => True :=
    .string_descend trivial options arePieces separates levels
  have called := Traverses.call_primary strings rfl isPath isLocal notBlock here read tokens isRead rfl
    unspoilt
  have noOperator : UnaryOp.ofTag? here.cursor.current.tag = none := by
    rw [Traverses.tag_eq unspoilt isRead rfl]
    rfl
  have operand : (level options first rounds levels).operand.run here =
      ((level options first rounds levels).primary >>=
        (level options first rounds levels).chain).run here := by
    rw [run_operand, noOperator]
    rfl
  rw [expressionFrom_eq, bind_assoc, run_bind_congr operand, bind_assoc]
  refine Mirrored.iff_outcome.mpr (.bind (called.mono ?_ ?_))
  · rintro id after ⟨-, left⟩
    have stands := left.reaches
    have kept : Parser.Tracks source first second rounds after there :=
      ⟨tokens, rest, left, unspoiltOther, respells⟩
    have continues : Mirrored (Parser.Tracks source first second rounds) cuts (fun _ _ => True)
        (((level options first rounds levels).chain id >>= fun id =>
          (level options first rounds levels).loop id
            ((level options first rounds levels).infixStep .assignment)).run after)
        (((level options second rounds others).expressionFrom .assignment).run there) := by
      rcases starts with isBracket | isMinus
      · exact mirrored_bracket mirrors le kept (kept.tag.trans isBracket) id
      · rw [isMinus] at sameTag
        have ends : Traverses (respell source) first rounds False
            ((level options first rounds levels).chain id) [] .minus fun _ => True :=
          .chain_ends rfl Tag.noConfusion Tag.noConfusion
        obtain ⟨last, later, ran, _, left⟩ := @Traverses.run _ _ _ _ _ _ _ _ ends _ [] _ rfl sameTag left
        rw [run_bind_ok ran]
        have kept : Parser.Tracks source first second rounds later there :=
          ⟨tokens, rest, left, unspoiltOther, respells⟩
        exact mirrored_minus mirrors le kept (kept.tag.trans isMinus) last
    -- The assignment takes no operator any more, since the call took whatever followed.
    have ended := continues.also (outcome_continuation .assignment id stands)
    refine Mirrored.iff_outcome.mp ?_
    rw [← bind_pure ((level options second rounds others).expressionFrom .assignment), ← bind_assoc]
    refine ended.bind (fun right _ => ?_) (fun other _ => .pure trivial)
      fun right other after there _ ⟨kept, loose⟩ => ?_
    · exact .bind (adds_close (by nofun) start) fun id _ =>
        adds_infixes options first outer count .assignment id
    · have ends := @run_infixes_none count .assignment
        (close (infixNode .assign target right) start after).1
        (close (infixNode .assign target right) start after).2 (level options first rounds outer) loose
      rw [run_bind_ok (run_lift _ _), ends]
      exact .same trivial (kept.still (isStill_close (by nofun) start) (.pure ()))
  · rintro error final ⟨-, none, goesOn⟩
    exact refused_of_thrown none goesOn

/-- An assignment of a call mirrors the statement on the next line, if it goes on there with the token
that the statement starts with and no statement that starts there is cut off. -/
theorem mirrored_pause {cuts : ParseError → Prop}
    (mirrors : ∀ fewer < levels, ∀ more ≥ fewer,
      LevelsMirror source options first second rounds cuts fewer more)
    (le : levels ≤ others) {path : List Tag} {localName : Option (List Tag)}
    (isPath : Tag.ArePieces path) (isLocal : ∀ run ∈ localName, Tag.ArePieces run)
    {read tokens rest : List (Token String)}
    (unspoilt : here.Unspoilt (respell source) first rounds (read ++ tokens))
    (isRead : read.map Token.tag = Tag.ofImport path localName)
    (unspoiltOther : there.Unspoilt source second rounds rest)
    (respells : List.Forall₂ (fun token other => TokenKind.Respells token.kind other.kind) tokens rest)
    (continues : Lookahead.continuesExpression there.cursor.current.tag = true)
    (cut : TagSet.expressionStart.contains there.cursor.current.tag = false → cuts there.missing) :
    Mirrored (Parser.Tracks source first second rounds) cuts (fun _ _ => True)
      ((descend options first rounds levels (.expression .assignment)).run here)
      ((descend options second rounds (others + 1) .statement).run there) := by
  cases levels with
  | zero =>
    rw [show (descend options first rounds 0 (.expression .assignment)).run here = _ from
      Parser.run_refuse options.maxDepth here]
    exact refused_of_thrown unspoilt.errors unspoilt.goesOn
  | succ levels =>
    obtain ⟨others, rfl⟩ : ∃ more, others = more + 1 := ⟨others - 1, by omega⟩
    have statement : (descend options second rounds (others + 1 + 1) .statement).run there =
        ((level options second rounds others).expressionFrom .assignment).run there := by
      rw [descend_succ]
      refine (run_statement_continues continues).trans ?_
      show (descend options second rounds (others + 1) (.expression .assignment)).run there = _
      rw [descend_succ]
      rfl
    rw [statement, descend_succ]
    show Mirrored _ _ _ (((level options first rounds levels).expressionFrom .assignment).run here) _
    cases startsNone : TagSet.expressionStart.contains there.cursor.current.tag with
    | false =>
      rw [run_expressionFrom_missing startsNone]
      exact .cut (.thrown unspoiltOther.errors unspoiltOther.goesOn (cut startsNone))
    | true =>
      have starts : there.cursor.current.tag = .leftBracket ∨ there.cursor.current.tag = .minus := by
        generalize there.cursor.current.tag = tag at continues startsNone
        cases tag <;> first | contradiction | exact .inl rfl | exact .inr rfl
      obtain ⟨name, more, rfl, isName, isMore⟩ := List.map_eq_cons_iff.mp isRead
      obtain ⟨assign, call, rfl, isAssign, isCall⟩ := List.map_eq_cons_iff.mp isMore
      have operand : Traverses (respell source) first rounds False
          (level options first rounds levels).operand [.identifier] .assign fun _ => True :=
        .target_operand rfl
      obtain ⟨target, middle, ran, _, left⟩ := @Traverses.run _ _ _ _ _ _ _ _ operand here [name]
        (assign :: call ++ tokens) (congrArg ([·]) isName) isAssign unspoilt
      have isOp : InfixOp.ofTag? middle.cursor.current.tag = some .assign := by
        rw [left.sees.tag]
        exact congrArg InfixOp.ofTag? isAssign
      obtain ⟨start, round⟩ := @run_infixRound target middle (level options first rounds levels) .assign
      have loop := @run_infixes_some (rounds - 1) .assignment target middle
        (level options first rounds levels) _ isOp (Nat.le_refl _)
      rw [Nat.sub_add_cancel (Nat.zero_lt_of_lt left.length_lt)] at loop
      have whole : ((level options first rounds levels).expressionFrom .assignment).run here = _ :=
        (run_bind_ok ran).trans (loop.trans (run_bind_congr round))
      rw [whole, bind_assoc]
      cases levels with
      | zero => exact mirrored_refuse left.advance
      | succ levels =>
        show Mirrored _ _ _
          (((descend options first rounds (levels + 1) (.expression .assignment)) >>= _).run _) _
        rw [descend_succ]
        exact mirrored_call (fun fewer le more ge => mirrors fewer (by omega) more ge) (by omega) isPath
          isLocal left.advance isCall unspoiltOther respells starts (levels + 1) (rounds - 1) target start

/-- An import mirrors the assignment of a call, or the assignment goes on where the import pauses. -/
theorem mirrored_import
    (mirrors : ∀ fewer < levels, ∀ more ≥ fewer,
      LevelsMirror source options first second rounds (ParseError.BreaksImport source) fewer more)
    (le : levels ≤ others) {tokens pending : List (Token String)}
    (unspoilt : here.Unspoilt (respell source) first rounds tokens)
    (unspoiltOther : there.Unspoilt source second rounds (Token.ordinary pending))
    (respells : List.Forall₂ (fun token other => TokenKind.Respells token.kind other.kind) tokens
      (Token.ordinary pending))
    (shape : Lookahead.IsImport source.toList pending) :
    Mirrored (Parser.Tracks source first second rounds) (ParseError.BreaksImport source)
        (fun _ _ => True) ((descend options first rounds levels (.expression .assignment)).run here)
        ((level options second rounds others).requireImport.run there) ∨
      ∃ id after left, (level options second rounds others).requireImport.run there =
          (.ok id, after) ∧
        Pauses source (ParseError.BreaksImport source) (level options first rounds (levels + 1))
          (level options second rounds (others + 1)) rounds
          ((descend options first rounds levels (.expression .assignment)).run here) id after left := by
  obtain ⟨before, close, rest, target, path, localName, whole, isKinds, isPath, isLocal, breaks⟩ :=
    shape.exists_tokens
  rw [whole, List.append_cons] at unspoiltOther respells
  have isRead : (before ++ [close]).map Token.tag =
      Tag.ofImport (path.map TokenKind.tag) (localName.map (·.map TokenKind.tag)) := by
    rw [← Tag.map_importKinds target, ← isKinds, List.map_map]
    rfl
  have pieces : ∀ run ∈ localName.map (·.map TokenKind.tag), Tag.ArePieces run := by
    intro run member
    obtain ⟨text, isText, rfl⟩ := Option.map_eq_some_iff.mp member
    exact Tag.arePieces_map (isLocal text isText)
  have reads {next : Tag} : Traverses source second rounds False
      (level options second rounds others).requireImport
      (Tag.ofImport (path.map TokenKind.tag) (localName.map (·.map TokenKind.tag))) next
      fun _ => True :=
    .requireImport rfl (Tag.arePieces_map isPath) pieces
  cases continues : Lookahead.continuesExpression (TokenKind.tagAt (rest.map Token.kind) 0) with
  | false =>
    exact .inl (mirrored_of_traverses (.import_descend trivial options (Tag.arePieces_map isPath)
      pieces continues levels) reads unspoilt unspoiltOther respells isRead rfl)
  | true =>
    obtain ⟨id, after, ran, -, left⟩ := reads.run isRead rfl unspoiltOther
    obtain ⟨first, last, rfl, sameTags, -, respells⟩ := TokenKind.Respells.split respells
    refine .inr ⟨id, after, rest, ran, left, continues, fun later unspoiltLater => ?_⟩
    refine mirrored_pause mirrors le (Tag.arePieces_map isPath) pieces unspoilt
      (sameTags.trans isRead) unspoiltLater respells (unspoiltLater.sees.tag ▸ continues) fun none => ?_
    rw [unspoiltLater.sees.tag] at none
    cases rest with
    | nil => contradiction
    | cons token rest =>
      have whole := unspoiltOther.remains.suffix (by
        rw [Traverses.tagAt_append isRead rfl]
        exact Tag.noConfusion)
      rw [← List.append_cons] at whole
      exact unspoiltLater.breaksImport_missing
        (Token.breaksImport isKinds isPath isLocal whole continues none (breaks token rfl continues))

/-- Statements mirror each other up to a pause after an import. -/
theorem statementsMirror
    (mirrors : ∀ fewer ≤ levels, ∀ more ≥ fewer,
      LevelsMirror source options first second rounds (ParseError.BreaksImport source) fewer more)
    (le : levels ≤ others) :
    StatementsMirror source (ParseError.BreaksImport source)
      (level options first rounds (levels + 1)) (level options second rounds (others + 1)) rounds
      (descend options first rounds (levels + 1) .statement)
      (descend options second rounds (others + 1) .statement) := by
  intro here there kept
  have mirror := mirrors levels (Nat.le_refl _) others le
  have sameRounds : (level options first rounds levels).rounds =
    (level options second rounds others).rounds := rfl
  have sameTag := kept.tag
  have left : (descend options first rounds (levels + 1) .statement).run here =
      ((level options first rounds levels).statementOf here.cursor.current.tag).run here := by
    rw [descend_succ]
    rfl
  have right : (descend options second rounds (others + 1) .statement).run there =
      ((level options second rounds others).statementOf here.cursor.current.tag).run there := by
    rw [descend_succ, sameTag]
    rfl
  rw [left, right]
  rcases Lockstep.statementOf sameRounds trivial here.cursor.current.tag with
    ⟨plain, plainOther⟩ | reading
  · rw [plain, plainOther]
    by_cases isName : here.cursor.current.tag = .identifier
    · have isOther : there.cursor.current.tag = .identifier := sameTag ▸ isName
      obtain ⟨tokens, left, unspoilt, unspoiltOther, respells⟩ := kept
      dsimp only [level] at unspoilt unspoiltOther
      have noImport := unspoilt.startsNoImport
      obtain ⟨asked, -⟩ := unspoilt.asks_startsImport
      obtain ⟨askedOther, shape⟩ := unspoiltOther.asks_startsImport
      generalize verdict : Lookahead.startsImport first.importName first.asKey here.cursor = answer
        at noImport asked
      generalize verdictOther : Lookahead.startsImport second.importName second.asKey there.cursor =
        answerOther at askedOther shape
      obtain ⟨starts, cursor⟩ := answer
      obtain ⟨startsOther, cursorOther⟩ := answerOther
      obtain rfl : starts = false := noImport
      rw [run_plainStatement_name (level options first rounds levels) isName verdict,
        run_plainStatement_name (level options second rounds others) isOther verdictOther,
        if_neg Bool.false_ne_true]
      cases startsOther with
      | false =>
        exact .inl (mirror.deeper (.expression .assignment) nofun _ _
          ⟨tokens, left, asked, askedOther, respells⟩)
      | true =>
        obtain ⟨pending, isImport, rfl⟩ := shape rfl
        exact mirrored_import (fun fewer less more ge => mirrors fewer (Nat.le_of_lt less) more ge) le
          asked askedOther respells isImport
    · have isOther : there.cursor.current.tag ≠ .identifier := sameTag ▸ isName
      refine .inl ?_
      cases ends : TagSet.bodyEnd.contains here.cursor.current.tag with
      | true =>
        obtain ⟨error, fails⟩ := run_plainStatement_end (level options first rounds levels) isName ends
        obtain ⟨_, _, unspoilt, _⟩ := kept
        rw [fails]
        exact refused_of_thrown unspoilt.errors unspoilt.goesOn
      | false =>
        rw [run_plainStatement_other _ isName ends, run_plainStatement_other _ isOther (sameTag ▸ ends)]
        exact mirror.deeper (.expression .assignment) nofun here there kept
  · exact .inl ((mirror.lockstep reading here there kept).mono fun _ _ _ => trivial)

/-- The levels of the grammar mirror each other. -/
theorem levelsMirror (source : String) (options : ParseOptions) (first second : SoftNames)
    (rounds levels : Nat) : ∀ others ≥ levels,
      LevelsMirror source options first second rounds (ParseError.BreaksImport source) levels
        others := by
  induction levels using Nat.strong_induction_on with
  | _ levels ih =>
  intro others ge
  cases levels with
  | zero =>
    have refused (request : Request) {here there : Parser}
        (kept : Parser.Tracks source first second rounds here there)
        (right : Except ParseError NodeId × Parser) :
        Mirrored (Parser.Tracks source first second rounds) (ParseError.BreaksImport source)
          (fun _ _ => True) ((descend options first rounds 0 request).run here) right := by
      obtain ⟨_, _, unspoilt, _⟩ := kept
      exact refused_of_thrown unspoilt.errors unspoilt.goesOn
    exact ⟨fun request _ here there kept => refused request kept _,
      fun here there kept => .inl (refused .statement kept _)⟩
  | succ levels =>
    obtain ⟨others, rfl⟩ : ∃ more, others = more + 1 := ⟨others - 1, by omega⟩
    have mirrors : ∀ fewer ≤ levels, ∀ more ≥ fewer,
        LevelsMirror source options first second rounds (ParseError.BreaksImport source) fewer more :=
      fun fewer le => ih fewer (Nat.lt_succ_of_le le)
    have le := Nat.le_of_succ_le_succ ge
    refine ⟨fun request nested => ?_, statementsMirror mirrors le⟩
    have mirror := mirrors levels (Nat.le_refl _) others le
    have sameRounds : (level options first rounds levels).rounds =
      (level options second rounds others).rounds := rfl
    rw [descend_succ, descend_succ]
    cases request with
    | statement => exact absurd rfl nested
    | expression least =>
      exact (mirror.inner (.expressionFrom sameRounds least)).mono fun _ _ _ => trivial
    | operand => exact (mirror.inner (.operand sameRounds)).mono fun _ _ _ => trivial

end Grammar

namespace Parser

variable {options : ParseOptions} {source : String}

/-- A parse of a text without lexical errors starts unspoilt. -/
theorem Begins.unspoilt {soft : SoftNames} {start : Parser} (begins : Begins source soft start)
    (faults : Piece.faults source.toList = []) :
    start.Unspoilt source soft (Parser.rounds source) (Token.ordinary (sourceTokens source)) :=
  ⟨⟨_, begins.ready.pending, rfl⟩, begins.reaches, begins.ready.soft, begins.text,
    begins.faults.trans faults, begins.errors, begins.halted, .refl _⟩

/-- The errors of a program are those of its body. -/
theorem errors_program (grammar : Grammar) (parser : Parser) :
    (grammar.program parser).2.errors = (grammar.body .empty parser).2.errors := rfl

/-- When no error is reported in the program of a respelled text, the first that is reported in that
of the text breaks an import. -/
theorem Tracks.breaksImport {first second : SoftNames} {rounds : Nat} {here there : Parser}
    (kept : Tracks source first second rounds here there) (levels : Nat)
    (none : ((level options first rounds levels).program here).2.errors = #[]) :
    ∀ error ∈ ((level options second rounds levels).program there).2.errors.toList.head?,
      error.BreaksImport source := by
  have mirrored := (levelsMirror source options first second rounds levels levels (Nat.le_refl _)).body
    (show TagSet.empty.union .bodyEnd = .bodyEnd by decide) here there kept
  rw [errors_program] at none ⊢
  rw [run_lift, run_lift] at mirrored
  generalize (level options first rounds levels).body .empty here = left at none mirrored
  generalize (level options second rounds levels).body .empty there = right at mirrored ⊢
  obtain ⟨range, here⟩ := left
  obtain ⟨rangeOther, there⟩ := right
  intro error isError
  cases mirrored with
  | refused fails =>
    cases fails with
    | reported errs =>
      obtain ⟨first, isFirst, -⟩ := errs
      rw [none] at isFirst
      contradiction
  | cut fails =>
    cases fails with
    | reported errs =>
      obtain ⟨first, isFirst, breaks⟩ := errs
      rw [isFirst] at isError
      rwa [← Option.some.inj isError]
  | same _ kept =>
    obtain ⟨_, _, _, unspoilt, _⟩ := kept
    rw [unspoilt.errors] at isError
    contradiction

end Parser

end Vibescript
