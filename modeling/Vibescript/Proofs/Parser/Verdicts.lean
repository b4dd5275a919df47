import Vibescript.Proofs.Cursor.Directives
import Vibescript.Proofs.Cursor.Transparency
import Vibescript.Proofs.Parser.Completeness
import Vibescript.Proofs.Parser.Parting
import Vibescript.Proofs.Parser.Program

/-!
# What lookahead promises is kept

Three readings are chosen by a question about the tokens ahead, and each of the three rules is
written twice: as the question, which takes nothing, and as the reading, which takes tokens one
after the other. Both are followed over the same tokens here. Where the question says yes, the
reading cannot fail for want of a token, and it takes exactly the tokens that were looked at.
-/
namespace Vibescript

namespace Reader

/-- The reader so many steps further. -/
def stepped : Nat → Reader → Reader
  | 0, reader => reader
  | count + 1, reader => stepped count reader.advance

/-- Steps after steps. -/
theorem stepped_stepped (first second : Nat) (reader : Reader) :
    stepped second (stepped first reader) = stepped (first + second) reader := by
  induction first generalizing reader with
  | zero => rw [stepped, Nat.zero_add]
  | succ first ih =>
    rw [stepped, ih, Nat.succ_add, stepped]

end Reader

/-- A token at a place is the only one there. -/
theorem Token.Stays.unique {names : NameTable} {token : Token Name}
    {first second : Option (Token String)} (left : token.Stays names first)
    (right : token.Stays names second) : first = second := by
  cases first with
  | none =>
    cases second with
    | none => rfl
    | some other => exact absurd left right.1
  | some token =>
    cases second with
    | none => exact absurd right left.1
    | some other => rw [← left.2.2, ← right.2.2]

namespace Cursor

/-- Two cursors stand at the same place: they show the same, and whatever they are asked from
there on has the same effect. -/
structure SamePlace (left right : Cursor) : Prop where
  /-- They show the same. -/
  view : left.view = right.view
  /-- They go on alike. -/
  effects : ∀ later, (left.performAll later).1 = (right.performAll later).1

/-- From one cursor to another, one token after the other was taken, and they are of these
kinds. -/
structure Takes (before : Cursor) (kinds : List (TokenKind String)) (after : Cursor) : Prop where
  /-- So many steps take tokens of these kinds. -/
  taken : ((before.performAll (List.replicate kinds.length .advance)).1.flatMap (·.taken)).map
    Token.kind = kinds
  /-- They lead to the same place. -/
  place : after.SamePlace (before.performAll (List.replicate kinds.length .advance)).2

variable {cursor before after : Cursor} {reader : Reader} {tokens others : List (Token String)}
  {kind : TokenKind String} {kinds more : List (TokenKind String)}

/-- Only one list of ordinary tokens is pending. -/
theorem Pending.ordinary_unique (left : cursor.Pending tokens) (right : cursor.Pending others) :
    Token.ordinary tokens = Token.ordinary others :=
  List.ext_getElem? fun place => (looks_peek left place).2.unique (looks_peek right place).2

/-- Only one list of ordinary kinds is pending. -/
theorem Pending.kinds_unique (left : cursor.Pending tokens) (right : cursor.Pending others) :
    Token.kinds tokens = Token.kinds others :=
  congrArg (List.map Token.kind) (left.ordinary_unique right)

namespace ReadBy

/-- Cursors of one reader stand at the same place. -/
theorem samePlace (left : after.ReadBy reader) (right : before.ReadBy reader) :
    after.SamePlace before :=
  ⟨left.view.trans right.view.symm, fun later =>
    (left.performAll later).1.trans (right.performAll later).1.symm⟩

/-- The first kind is that of the token that a step takes. -/
theorem kinds_cons (readBy : cursor.ReadBy reader)
    (faces : Token.kinds reader.tokens = kind :: kinds) :
    reader.taking.map Token.kind = [kind] ∧ Token.kinds reader.advance.tokens = kinds := by
  have whole := reader.ordinary_advance
  rw [Reader.taking, ← readBy.isAtEnd] at whole ⊢
  cases atEnd : cursor.isAtEnd with
  | true =>
    rw [Token.kinds, (readBy.pending.atEnd atEnd).2.2] at faces
    contradiction
  | false =>
    rw [atEnd] at whole
    rw [Token.kinds, whole] at faces
    obtain ⟨isKind, rest⟩ := List.cons.inj faces
    exact ⟨congrArg ([·]) isKind, rest⟩

/-- After so many steps, so many kinds were taken. -/
theorem stepped (readBy : cursor.ReadBy reader)
    (faces : Token.kinds reader.tokens = kinds ++ more) :
    ∃ after : Cursor, after.ReadBy (reader.stepped kinds.length) ∧
      Token.kinds (reader.stepped kinds.length).tokens = more := by
  induction kinds generalizing cursor reader with
  | nil => exact ⟨cursor, readBy, faces⟩
  | cons kind kinds ih => exact ih readBy.advance (readBy.kinds_cons faces).2

/-- The tokens that so many steps take. -/
theorem taken_steps (readBy : cursor.ReadBy reader)
    (faces : Token.kinds reader.tokens = kinds ++ more) :
    ((reader.performAll (List.replicate kinds.length .advance)).1.flatMap (·.taken)).map
        Token.kind = kinds ∧
      (reader.performAll (List.replicate kinds.length .advance)).2 =
        reader.stepped kinds.length := by
  induction kinds generalizing cursor reader with
  | nil => exact ⟨rfl, rfl⟩
  | cons kind kinds ih =>
    obtain ⟨first, rest⟩ := readBy.kinds_cons faces
    obtain ⟨taken, last⟩ := ih readBy.advance rest
    refine ⟨?_, last⟩
    exact List.map_append.trans (congrArg₂ (· ++ ·) first taken)

/-- A cursor that stands after tokens of these kinds has taken them. -/
theorem takes (readBy : before.ReadBy reader) (faces : Token.kinds reader.tokens = kinds ++ more)
    (stands : after.ReadBy (reader.stepped kinds.length)) : before.Takes kinds after := by
  obtain ⟨effects, leads⟩ := readBy.performAll (List.replicate kinds.length .advance)
  obtain ⟨taken, last⟩ := readBy.taken_steps faces
  rw [last] at leads
  refine ⟨?_, stands.samePlace leads⟩
  rw [effects, taken]

end ReadBy

end Cursor

/-- A reading that succeeds took one token after the other. -/
def Parse.Strides {α : Type} (reading : Parse α) : Prop :=
  ∀ (start : Parser) (reader : Reader), start.cursor.ReadBy reader →
    reading.Outcome start
      (fun _ after => ∃ kinds more, Token.kinds reader.tokens = kinds ++ more ∧
        after.cursor.ReadBy (reader.stepped kinds.length))
      fun _ _ => True

namespace Parse.Strides

variable {α β : Type} {reading : Parse α} {next : α → Parse β}

/-- A step that leaves the cursor. -/
theorem ofSame {step : Build α}
    (same : ∀ parser : Parser, (step parser).2.cursor = parser.cursor) : Strides (liftM step) := by
  intro start reader readBy
  refine .lift ⟨[], Token.kinds reader.tokens, rfl, ?_⟩
  rw [same]
  exact readBy

/-- A step of the cursor that takes no token or the current one. -/
theorem ofStep {step : Cursor → α × Cursor}
    (steps : ∀ cursor, (step cursor).2 = cursor ∨ (step cursor).2 = cursor.advance.2) :
    Strides (liftM (Build.onCursor step)) := by
  intro start reader readBy
  refine .lift (Parser.outcome_onCursor.mpr ?_)
  rcases steps start.cursor with same | same
  · refine ⟨[], Token.kinds reader.tokens, rfl, ?_⟩
    rw [Parser.withCursor, same]
    exact readBy
  · cases faces : Token.kinds reader.tokens with
    | nil =>
      have atEnd : start.cursor.isAtEnd = true := by
        by_contra notEnd
        obtain ⟨rest, ordinary⟩ := readBy.pending.ordinary (eq_false_of_ne_true notEnd)
        rw [Token.kinds, ordinary] at faces
        contradiction
      refine ⟨[], [], rfl, ?_⟩
      rw [Parser.withCursor, same, Cursor.advance_atEnd atEnd]
      exact readBy
    | cons kind kinds =>
      refine ⟨[kind], kinds, rfl, ?_⟩
      rw [Parser.withCursor, same]
      exact readBy.advance

/-- A reading that only answers. -/
theorem pure (answer : α) : Strides (Pure.pure answer) :=
  show Strides (liftM (Pure.pure answer : Build α)) from ofSame fun _ => rfl

/-- A reading that only fails. -/
theorem throw (error : ParseError) : Strides (MonadExcept.throw error : Parse α) :=
  fun _ _ _ => .throw trivial

/-- One reading after another. -/
theorem bind (first : reading.Strides) (second : ∀ answer, (next answer).Strides) :
    Strides (reading >>= next) := by
  intro start reader readBy
  refine .bind ((first start reader readBy).imp fun answer now ⟨kinds, more, faces, stands⟩ => ?_)
  obtain ⟨_, _, left⟩ := readBy.stepped faces
  refine (second answer now _ stands).imp fun _ after ⟨taken, rest, same, stood⟩ => ?_
  refine ⟨kinds ++ taken, rest, ?_, ?_⟩
  · rw [faces, ← left, same, List.append_assoc]
  · rw [List.length_append, ← Reader.stepped_stepped]
    exact stood

/-- A step is repeated. -/
theorem repeatWithin {step : α → Parse (ForInStep α)} (steps : ∀ state, (step state).Strides)
    (rounds : Nat) (state : α) : Strides (Grammar.repeatWithin step rounds state) := by
  induction rounds generalizing state with
  | zero => exact pure state
  | succ rounds ih =>
    refine bind (steps state) fun result => ?_
    cases result with
    | yield state => exact ih state
    | done state => exact pure state

end Parse.Strides

open Build Parse

/-- The cursor. -/
theorem strides_cursor : Strides (liftM Build.cursor) := .ofSame fun _ => rfl

/-- The current token. -/
theorem strides_current : Strides (liftM Build.current) := .ofSame fun _ => rfl

/-- Whether the current token has a tag. -/
theorem strides_check (tag : Tag) : Strides (liftM (Build.check tag)) := .ofSame fun _ => rfl

/-- The error of finding the current token. -/
theorem strides_unexpected (code : ErrorCode) (expected : TagSet) :
    Strides (liftM (Build.unexpected code expected)) := .ofSame fun _ => rfl

/-- A new node. -/
theorem strides_addNode (kind : NodeKind) (span : Span) :
    Strides (liftM (Build.addNode kind span)) := .ofSame fun _ => rfl

/-- A new node for a construct. -/
theorem strides_close (kind : NodeKind) (start : Span) :
    Strides (liftM (Build.close kind start)) := .ofSame fun _ => rfl

/-- A step over the current token. -/
theorem strides_advance : Strides (liftM Build.advance) := .ofStep fun _ => .inr rfl

/-- A step over the current token if it has a tag. -/
theorem strides_eat (tag : Tag) : Strides (liftM (Build.eat tag)) := by
  refine .ofStep fun cursor => ?_
  rw [Cursor.eat]
  split
  · exact .inr rfl
  · exact .inl rfl

/-- A token is expected. -/
theorem strides_expect (tag : Tag) (construct : Construct) : (expect tag construct).Strides := by
  unfold expect expectWith
  refine .bind (strides_check tag) fun stands => ?_
  split
  · exact strides_advance
  · exact .bind (strides_unexpected _ _) fun error => .throw _

/-- An identifier is expected. -/
theorem strides_expectIdentifier (construct : Construct) :
    (expectIdentifier construct).Strides := by
  unfold expectIdentifier
  refine .bind strides_current fun token => ?_
  split
  · exact .bind strides_advance fun _ => .pure _
  · exact .bind (strides_unexpected _ _) fun error => .throw _

/-- A constant is expected. -/
theorem strides_expectConstant (construct : Construct) : (expectConstant construct).Strides := by
  unfold expectConstant
  refine .bind strides_current fun token => ?_
  split
  · exact .bind strides_advance fun _ => .pure _
  · exact .bind (strides_unexpected _ _) fun error => .throw _

/-- A text is interned. -/
theorem strides_intern (text : String) : Strides (liftM (Build.intern text)) := by
  intro start reader readBy
  exact .lift (Parser.outcome_onCursor.mpr
    ⟨[], Token.kinds reader.tokens, rfl, (readBy.intern text).2⟩)

namespace Grammar

variable (grammar : Grammar)

/-- A string literal. -/
theorem strides_stringLiteral : grammar.stringLiteral.Strides := by
  unfold stringLiteral
  refine .bind (strides_expect _ _) fun opening => ?_
  refine .bind (.repeatWithin (fun text => ?_) _ _) fun text => ?_
  · refine .bind strides_cursor fun cursor => ?_
    generalize cursor.current.kind = kind
    cases kind with
    | stringContent run => exact .bind strides_advance fun _ => .pure _
    | stringEscape char => exact .bind strides_advance fun _ => .pure _
    | stringClose => exact .bind strides_advance fun _ => .pure _
    | _ => exact .bind (strides_unexpected _ _) fun error => .throw _
  · exact .bind (strides_intern text) fun value => strides_close _ _

/-- The local name of an import. -/
theorem strides_asName? : grammar.asName?.Strides := by
  unfold asName?
  refine .bind (strides_eat _) fun eaten => ?_
  split
  · exact .bind (strides_expectIdentifier _) fun _ => .bind (strides_expect _ _) fun _ =>
      .bind grammar.strides_stringLiteral fun _ => .pure _
  · exact .pure _

/-- An import. -/
theorem strides_requireImport : grammar.requireImport.Strides := by
  unfold requireImport
  refine .bind (strides_expectIdentifier _) fun found => .bind (strides_addNode _ _) fun target => ?_
  refine .bind (strides_expect _ _) fun _ => .bind (strides_expectIdentifier _) fun _ => ?_
  refine .bind (strides_expect _ _) fun _ => .bind grammar.strides_stringLiteral fun path => ?_
  refine .bind grammar.strides_asName? fun asName => .bind (strides_expect _ _) fun _ => ?_
  exact strides_close _ _

end Grammar

/-- The kinds of a string literal. -/
def stringKinds (pieces : List (TokenKind String)) : List (TokenKind String) :=
  .stringOpen :: (pieces ++ [.stringClose])

/-- The kinds of the local name of an import, if it has one. -/
def localNameKinds : Option (List (TokenKind String)) → List (TokenKind String)
  | none => []
  | some pieces => .fixed .comma :: .identifier "as" :: .fixed .colon :: stringKinds pieces

/-- The kinds of an import from its target to its closing parenthesis. -/
def importKinds (target : String) (path : List (TokenKind String))
    (localName : Option (List (TokenKind String))) : List (TokenKind String) :=
  .identifier target :: .fixed .assign :: .identifier "require" :: .fixed .leftParen ::
    (stringKinds path ++ (localNameKinds localName ++ [.fixed .rightParen]))

/-- Kinds of tokens between quotation marks. -/
def IsText (pieces : List (TokenKind String)) : Prop :=
  ∀ piece ∈ pieces, piece.pieceText?.isSome = true

namespace Lookahead

variable {source : List Char} {tokens : List (Token String)} {kinds : List (TokenKind String)}
  {place past : Nat}

/-- A string literal that stands at a place. -/
theorem StringAt.exists_kinds (stands : StringAt kinds place past) :
    ∃ pieces, IsText pieces ∧ kinds.drop place = stringKinds pieces ++ kinds.drop past := by
  obtain ⟨opens, pieces, later, all⟩ := stands
  refine ⟨pieces, all, ?_⟩
  rw [opens, later, stringKinds, List.cons_append, List.append_assoc]
  rfl

/-- What ends an import. -/
theorem ImportEndsAt.exists_kinds (ends : ImportEndsAt source tokens place) :
    ∃ localName last, (∀ pieces ∈ localName, IsText pieces) ∧ ClosesAt source tokens last ∧
      (Token.kinds tokens).drop place =
        localNameKinds localName ++ .fixed .rightParen :: (Token.kinds tokens).drop (last + 1) := by
  rcases ends with closes | ⟨comma, past, string, closes⟩
  · exact ⟨none, _, nofun, closes, closes.closes⟩
  · obtain ⟨pieces, isText, same⟩ := string.exists_kinds
    refine ⟨some pieces, past, fun other member => ?_, closes, ?_⟩
    · obtain rfl := Option.some.inj member
      exact isText
    · rw [comma, same, closes.closes]
      rfl

/-- The tokens of an import come first. -/
theorem IsImport.exists_kinds (isImport : IsImport source tokens) :
    ∃ target path localName last, IsText path ∧ (∀ pieces ∈ localName, IsText pieces) ∧
      ClosesAt source tokens last ∧ Token.kinds tokens =
        importKinds target path localName ++ (Token.kinds tokens).drop (last + 1) := by
  obtain ⟨target, past, shape, string, ends⟩ := isImport
  obtain ⟨path, isPath, same⟩ := string.exists_kinds
  obtain ⟨localName, last, isLocal, closes, rest⟩ := ends.exists_kinds
  refine ⟨target, path, localName, last, isPath, isLocal, closes, ?_⟩
  rw [same, rest] at shape
  rw [importKinds]
  simpa using shape

/-- The token that a parameter of a shape starts with. -/
def ParameterShape.opening : ParameterShape → Tag
  | .simple | .typed => .identifier
  | .instanceVariable => .instanceVariable

/-- A parameter of a shape starts with the token of that shape, and a colon or a symbol comes after
it if it has a type. -/
theorem tells_parameterShape {known : List (Name × String)} :
    parameter?.Tells source tokens known fun answer => ∀ shape ∈ answer,
      TokenKind.tagAt (Token.kinds tokens) 0 = shape.opening ∧
      (shape = .typed → TokenKind.tagAt (Token.kinds tokens) 1 = .colon ∨
        TokenKind.tagAt (Token.kinds tokens) 1 = .symbol) := by
  refine .bind ((tells_tag 0).mono fun tag same => ?_)
  split
  · refine .bind ((tells_tag 1).mono fun second next => ?_)
    split
    · refine .pure fun shape member => ?_
      obtain rfl := Option.some.inj member
      exact ⟨same.symm, fun _ => .inl next.symm⟩
    · refine .pure fun shape member => ?_
      obtain rfl := Option.some.inj member
      exact ⟨same.symm, fun _ => .inr next.symm⟩
    · refine .pure fun shape member => ?_
      obtain rfl := Option.some.inj member
      exact ⟨same.symm, nofun⟩
  · refine .pure fun shape member => ?_
    obtain rfl := Option.some.inj member
    exact ⟨same.symm, nofun⟩
  · exact .pure nofun

end Lookahead

namespace Parser

open TokenKind

variable {soft : SoftNames} {rounds : Nat} {grammar : Grammar} {now : Parser}
  {rest : List (TokenKind String)}

/-- A constant that is there is expected. -/
theorem succeeds_expectConstant {text : String}
    (faces : now.Faces soft rounds (.constant text :: rest)) (construct : Construct) :
    (Parse.expectConstant construct).Succeeds soft rounds now rest fun name forest =>
      forest.names.Spells name text := by
  obtain ⟨_, same, _⟩ := faces.step
  refine succeeds_current.mpr ?_
  split
  · next name isName =>
    refine .bind (succeeds_advance faces)
      fun token after _ more ⟨isToken, reads, known⟩ => .pure more ?_
    rw [isToken, isName] at reads known
    exact ⟨known name rfl, TokenKind.constant.inj reads⟩
  · next other =>
    cases isKind : now.cursor.current.kind <;> rw [isKind] at same <;>
      first
      | exact absurd isKind (other _)
      | contradiction

/-- A string literal whose kinds are there is read. -/
theorem succeeds_stringKinds (sameRounds : grammar.rounds = rounds)
    {pieces : List (TokenKind String)} (isText : IsText pieces)
    (faces : now.Faces soft rounds (stringKinds pieces ++ rest)) :
    grammar.stringLiteral.Succeeds soft rounds now rest fun _ _ => True := by
  rw [stringKinds, List.cons_append, List.append_assoc] at faces
  exact (succeeds_stringLiteral sameRounds faces isText).imp fun _ _ _ => trivial

/-- The local name of an import is read up to the closing parenthesis. -/
theorem succeeds_asName? (sameRounds : grammar.rounds = rounds)
    {localName : Option (List (TokenKind String))} (isLocal : ∀ pieces ∈ localName, IsText pieces)
    (faces : now.Faces soft rounds (localNameKinds localName ++ .fixed .rightParen :: rest)) :
    grammar.asName?.Succeeds soft rounds now (.fixed .rightParen :: rest) fun _ _ => True := by
  unfold Grammar.asName?
  cases localName with
  | none =>
    refine .bind (succeeds_eat_none faces Tag.noConfusion) fun eaten now _ faces absent => ?_
    rw [absent]
    exact .pure faces trivial
  | some pieces =>
    refine .bind (succeeds_eat faces) fun eaten now _ faces present => ?_
    rw [present]
    refine .bind (succeeds_expectIdentifier faces _) fun _ now _ faces _ => ?_
    refine .bind (succeeds_expect faces _) fun _ now _ faces _ => ?_
    refine .bind (succeeds_stringKinds sameRounds (isLocal pieces rfl) faces)
      fun _ now _ faces _ => ?_
    exact .pure faces trivial

/-- An import is read up to its closing parenthesis. -/
theorem succeeds_requireImport (sameRounds : grammar.rounds = rounds) {target : String}
    {path : List (TokenKind String)} {localName : Option (List (TokenKind String))}
    (isPath : IsText path) (isLocal : ∀ pieces ∈ localName, IsText pieces)
    (faces : now.Faces soft rounds (importKinds target path localName ++ rest)) :
    grammar.requireImport.Succeeds soft rounds now rest fun _ _ => True := by
  have faces : now.Faces soft rounds (.identifier target :: .fixed .assign ::
      .identifier "require" :: .fixed .leftParen :: (stringKinds path ++
        (localNameKinds localName ++ .fixed .rightParen :: rest))) := by
    rw [importKinds] at faces
    simpa using faces
  unfold Grammar.requireImport
  refine .bind (succeeds_expectIdentifier faces _) fun found now _ faces _ => ?_
  refine .bind (succeeds_addNode faces _ _) fun target now _ faces _ => ?_
  refine .bind (succeeds_expect faces _) fun _ now _ faces _ => ?_
  refine .bind (succeeds_expectIdentifier faces _) fun _ now _ faces _ => ?_
  refine .bind (succeeds_expect faces _) fun _ now _ faces _ => ?_
  refine .bind (succeeds_stringKinds sameRounds isPath faces) fun path now _ faces _ => ?_
  refine .bind (succeeds_asName? sameRounds isLocal faces) fun asName now _ faces _ => ?_
  refine .bind (succeeds_expect faces _) fun _ now _ faces _ => ?_
  exact (succeeds_close faces _ _).imp fun _ _ _ => trivial

end Parser

/-- A reading whose course is known takes the kinds on its way, one after the other. -/
theorem Parse.Succeeds.steps {α : Type} {reading : Parse α} {soft : SoftNames} {rounds : Nat}
    {start : Parser} {reader : Reader} {kinds rest : List (TokenKind String)}
    {holds : α → Forest → Prop} (succeeds : reading.Succeeds soft rounds start rest holds)
    (strides : reading.Strides) (readBy : start.cursor.ReadBy reader)
    (faces : Token.kinds reader.tokens = kinds ++ rest) :
    ∃ answer after, reading.run start = (.ok answer, after) ∧ start.Goes after ∧
      holds answer after.forest ∧ after.cursor.ReadBy (reader.stepped kinds.length) := by
  have both := Outcome.and succeeds (strides start reader readBy)
  rw [Outcome, Build.Outcome] at both
  cases ran : reading.run start with
  | mk result after =>
    rw [ran] at both
    cases result with
    | error error => exact both.1.elim
    | ok answer =>
      obtain ⟨⟨goes, ⟨tokens, ready, left⟩, holds⟩, taken, more, same, stands⟩ := both
      refine ⟨answer, after, rfl, goes, holds, ?_⟩
      have isMore : more = rest := by
        obtain ⟨_, _, isLeft⟩ := readBy.stepped same
        rw [← isLeft, ← left, stands.pending.kinds_unique ready.pending]
      rw [faces, isMore] at same
      rwa [← List.append_cancel_right same] at stands

namespace Grammar

/-- The reading of a parameter of a shape, given its name. There is no arm for another first
token. -/
def namedParameter (grammar : Grammar) (shape : Lookahead.ParameterShape) (name : Name) :
    Parse NodeId := do
  let token ← advance
  let kind ←
    match shape with
    | .instanceVariable => pure (NodeKind.variableParameter name (← grammar.variableType?))
    | .typed =>
      let _ ← splitSymbol
      let _ ← expect .colon .parameters
      let type ← grammar.typeUnion
      pure (.typedParameter name type (← grammar.default?))
    | .simple => pure (.simpleParameter name (← grammar.default?))
  close kind token.span

/-- The colon of a typed parameter, after its name. -/
def parameterColon : Parse (Token Name) := do
  let _ ← advance
  let _ ← splitSymbol
  expect .colon .parameters

/-- The constant in parentheses that names the errors to rescue. -/
def filterConstant : Parse (Option Name) := do
  let _ ← advance
  let name ← expectConstant .rescueClause
  let _ ← expect .rightParen .rescueClause
  return some name

/-- A verdict that an import starts is kept: the import is read from its target to the parenthesis
that was looked at. Asking leaves the parser where it was. -/
def KeepsImport (grammar : Grammar) (parser : Parser) : Prop :=
  let verdict := Lookahead.startsImport grammar.soft.importName grammar.soft.asKey parser.cursor
  verdict.2.SamePlace parser.cursor ∧
  (verdict.1 = true → ∃ target path localName id after,
    IsText path ∧ (∀ pieces ∈ localName, IsText pieces) ∧
    grammar.requireImport.run (parser.withCursor verdict.2) = (.ok id, after) ∧
    after.errors = parser.errors ∧
    parser.cursor.Takes (importKinds target path localName) after.cursor)

/-- A verdict about the filter of a rescue is kept: its constant and its parenthesis are read, or
nothing is. Asking leaves the parser where it was. -/
def KeepsFilter (parser : Parser) : Prop :=
  let verdict := Lookahead.isRescueFilter parser.cursor
  verdict.2.SamePlace parser.cursor ∧
  (verdict.1 = true → ∃ name after, rescueFilter?.run parser = (.ok (some name), after) ∧
    after.errors = parser.errors ∧
    parser.cursor.Takes
      [.fixed .leftParen, .constant (after.cursor.nameText name), .fixed .rightParen]
      after.cursor) ∧
  (verdict.1 = false → rescueFilter?.run parser = (.ok none, parser.withCursor verdict.2))

/-- A verdict about the shape of a parameter is kept: its name is there, and its colon if it has a
type. Asking leaves the parser where it was. -/
def KeepsParameter (grammar : Grammar) (parser : Parser) : Prop :=
  let verdict := Lookahead.parameter? parser.cursor
  verdict.2.SamePlace parser.cursor ∧
  ∀ shape ∈ verdict.1, ∃ name,
    grammar.parameter.run parser =
      (grammar.namedParameter shape name).run (parser.withCursor verdict.2) ∧
    (shape = .typed → ∃ token after,
      parameterColon.run (parser.withCursor verdict.2) = (.ok token, after) ∧
        token.kind = .fixed .colon)

end Grammar

namespace Parser

open Grammar

variable {soft : SoftNames} {rounds : Nat} {grammar : Grammar} {now : Parser} {reader : Reader}
  {tokens : List (Token String)}

/-- After a question the parser stands at the same place, and the answer is about the tokens
there. -/
theorem Ready.asked {α : Type} {question : Lookahead α}
    {property : List (Token String) → α → Prop} (ready : now.Ready soft rounds tokens)
    (readBy : now.cursor.ReadBy reader)
    (tells : ∀ tokens, question.Tells now.cursor.source tokens soft.spelling (property tokens)) :
    (question now.cursor).2.ReadBy reader ∧ property reader.tokens (question now.cursor).1 ∧
      (now.withCursor (question now.cursor).2).Faces soft rounds (Token.kinds reader.tokens) := by
  obtain ⟨looks, holds⟩ := tells reader.tokens now.cursor rfl readBy.pending ready.soft
  obtain ⟨looked, _⟩ := tells tokens now.cursor rfl ready.pending ready.soft
  exact ⟨readBy.looks looks, holds, tokens, (Passes.of_moves looked.moves).ready ready,
    ready.pending.kinds_unique readBy.pending⟩

/-- The verdict that an import starts is kept. -/
theorem keepsImport (sameSoft : grammar.soft = soft) (sameRounds : grammar.rounds = rounds)
    (ready : now.Ready soft rounds tokens) (readBy : now.cursor.ReadBy reader) :
    grammar.KeepsImport now := by
  have isImport : (soft.importName, "require") ∈ soft.spelling := by
    simp [SoftNames.spelling, SoftNames.all, softKeywords]
  have isAs : (soft.asKey, "as") ∈ soft.spelling := by
    simp [SoftNames.spelling, SoftNames.all, softKeywords]
  obtain ⟨stays, shape, faces⟩ :=
    ready.asked readBy fun _ => Lookahead.tells_startsImport isImport isAs
  subst sameSoft
  refine ⟨stays.samePlace readBy, fun starts => ?_⟩
  obtain ⟨target, path, localName, last, isPath, isLocal, _, whole⟩ := (shape starts).exists_kinds
  rw [whole] at faces
  obtain ⟨id, after, ran, goes, _, stands⟩ :=
    (succeeds_requireImport sameRounds isPath isLocal faces).steps grammar.strides_requireImport
      stays whole
  exact ⟨target, path, localName, id, after, isPath, isLocal, ran, goes.errors,
    readBy.takes whole stands⟩

/-- A constant in parentheses is read. -/
theorem succeeds_filterConstant {text : String} {rest : List (TokenKind String)}
    (faces : now.Faces soft rounds
      ([.fixed .leftParen, .constant text, .fixed .rightParen] ++ rest)) :
    filterConstant.Succeeds soft rounds now rest fun filter forest =>
      ∃ name, filter = some name ∧ forest.names.text name = text := by
  unfold filterConstant
  refine .bind (succeeds_advance faces) fun _ now _ faces _ => ?_
  refine .bind (succeeds_expectConstant faces _) fun name now _ faces ⟨holds, reads⟩ => ?_
  refine Parse.Outcome.bind (Parse.Outcome.imp (succeeds_expect faces _)
    fun _ after ⟨goes, faces, _⟩ => ?_)
  exact .pure ⟨goes, faces, name, rfl, (goes.forest.names.text holds).trans reads⟩

/-- A constant in parentheses is taken one token after the other. -/
theorem strides_filterConstant : filterConstant.Strides :=
  .bind strides_advance fun _ => .bind (strides_expectConstant _) fun _ =>
    .bind (strides_expect _ _) fun _ => .pure _

/-- The verdict about the filter of a rescue is kept. -/
theorem keepsFilter (ready : now.Ready soft rounds tokens) (readBy : now.cursor.ReadBy reader) :
    KeepsFilter now := by
  obtain ⟨stays, shape, faces⟩ :=
    ready.asked readBy fun _ => Lookahead.tells_isRescueFilter
  have asks : ∀ yes, (Lookahead.isRescueFilter now.cursor).1 = yes →
      (liftM (Build.ask Lookahead.isRescueFilter) : Parse Bool).run now =
        (.ok yes, now.withCursor (Lookahead.isRescueFilter now.cursor).2) := by
    rintro _ rfl
    rfl
  refine ⟨stays.samePlace readBy, fun filters => ?_, fun noFilter => ?_⟩
  · obtain ⟨opens, isConstant, closes⟩ := shape filters
    obtain ⟨kind, isKind, second⟩ := TokenKind.drop_of_tagAt isConstant Tag.noConfusion
    obtain ⟨text, rfl⟩ := TokenKind.eq_constant isKind
    have whole : Token.kinds reader.tokens =
        [.fixed .leftParen, .constant text, .fixed .rightParen] ++
          (Token.kinds reader.tokens).drop 3 := by
      have first := TokenKind.drop_of_tagAt_fixed opens rfl
      rw [List.drop_zero, second, TokenKind.drop_of_tagAt_fixed closes rfl] at first
      exact first
    rw [whole] at faces
    obtain ⟨filter, after, ran, goes, ⟨name, rfl, reads⟩, stands⟩ :=
      (succeeds_filterConstant faces).steps strides_filterConstant stays whole
    refine ⟨name, after, ?_, goes.errors, ?_⟩
    · rw [rescueFilter?, run_bind_ok (asks true filters)]
      exact ran
    · rw [show after.cursor.nameText name = text from reads]
      exact readBy.takes whole stands
  · rw [rescueFilter?, run_bind_ok (asks false noFilter)]
    rfl

/-- A reading that starts with a step over the current token. -/
theorem run_advance_bind {α : Type} (next : Token Name → Parse α) (parser : Parser) :
    (liftM Build.advance >>= next).run parser =
      (next parser.cursor.current).run (parser.withCursor parser.cursor.advance.2) := by
  rw [← parser.cursor.advance_fst]
  rfl

/-- The name of a parameter is its first token. -/
theorem exists_parameterOf (grammar : Grammar) {shape : Lookahead.ParameterShape}
    (opens : now.cursor.current.tag = shape.opening) :
    ∃ name, (grammar.parameterOf shape).run now = (grammar.namedParameter shape name).run now := by
  cases shape with
  | simple =>
    obtain ⟨name, isName⟩ := TokenKind.eq_identifier opens
    refine ⟨name, ?_⟩
    rw [parameterOf, namedParameter, run_advance_bind, run_advance_bind, isName]
  | typed =>
    obtain ⟨name, isName⟩ := TokenKind.eq_identifier opens
    refine ⟨name, ?_⟩
    rw [parameterOf, namedParameter, run_advance_bind, run_advance_bind, isName]
  | instanceVariable =>
    obtain ⟨name, isName⟩ := TokenKind.eq_instanceVariable opens
    refine ⟨name, ?_⟩
    rw [parameterOf, namedParameter, run_advance_bind, run_advance_bind, isName]

/-- The colon of a parameter is found where it stands after a split. -/
theorem exists_colon (isColon : now.cursor.advance.2.splitSymbol.2.current.tag = .colon) :
    ∃ token after, parameterColon.run now = (.ok token, after) ∧ token.kind = .fixed .colon := by
  have kind := TokenKind.eq_fixed isColon rfl
  rw [parameterColon, run_advance_bind, run_bind_ok (run_lift _ _)]
  generalize stands : ((Build.splitSymbol (now.withCursor now.cursor.advance.2)).2) = there
  have isCursor : there.cursor = now.cursor.advance.2.splitSymbol.2 := by
    rw [← stands]
    rfl
  rw [← isCursor] at isColon kind
  have checks : there.cursor.check .colon = true := beq_iff_eq.mpr isColon
  refine ⟨there.cursor.current, there.withCursor there.cursor.advance.2, ?_, kind⟩
  have asks : (liftM (Build.check .colon) : Parse Bool).run there = (.ok true, there) :=
    congrArg (fun answer => (Except.ok answer, there)) checks
  rw [expect, expectWith, run_bind_ok asks, if_pos rfl, run_lift, ← there.cursor.advance_fst]
  rfl

/-- The verdict about the shape of a parameter is kept. -/
theorem keepsParameter (ready : now.Ready soft rounds tokens) (readBy : now.cursor.ReadBy reader) :
    grammar.KeepsParameter now := by
  obtain ⟨stays, shapes, _⟩ := ready.asked readBy fun _ => Lookahead.tells_parameterShape
  refine ⟨stays.samePlace readBy, fun shape member => ?_⟩
  obtain ⟨opens, colon⟩ := shapes shape member
  rw [← stays.pending.tag] at opens
  obtain ⟨name, same⟩ := exists_parameterOf grammar
    (show (now.withCursor (Lookahead.parameter? now.cursor).2).cursor.current.tag = _ from opens)
  refine ⟨name, ?_, fun typed => ?_⟩
  · have asks : (liftM Build.askParameter? : Parse _).run now =
        (.ok (some shape), now.withCursor (Lookahead.parameter? now.cursor).2) :=
      congrArg (fun answer => (Except.ok answer, now.withCursor (Lookahead.parameter? now.cursor).2))
        member
    rw [Grammar.parameter, run_bind_ok asks]
    exact same
  · have real : shape.opening ≠ .endOfInput := by cases shape <;> exact Tag.noConfusion
    have notEnd := notAtEnd opens real
    have stepped := colon typed
    rw [← stays.pending.tag_advance notEnd] at stepped
    exact exists_colon (Cursor.tag_splitSymbol stays.advance.pending stepped)

/-- What a parser reads from does not depend on what it has built. -/
theorem Ready.exchange (ready : now.Ready soft rounds tokens) {before : Parser}
    (halted : before.isHalted = true → before.errors ≠ #[]) :
    (before.withCursor now.cursor).Ready soft rounds tokens :=
  ⟨ready.pending, ready.rounds, ready.soft, halted⟩

/-- The cursor at the start of a parse stands where a reader of the source text does. -/
theorem readBy_start (source : String) :
    (Parser.start source).2.cursor.ReadBy (.ofSource source) := by
  have begins := begins_start source
  refine ⟨begins.ready.pending, ?_, ?_, begins.text⟩ <;> rw [start_eq]
  · exact (Cursor.ReadBy.start source).previous
  · exact (Cursor.ReadBy.start source).position

end Parser

/-- What the disambiguator promises, the parser keeps. Wherever a cursor stands in a source text
after operations of any kind, a verdict that an import starts is followed by reading it, from its
target to the parenthesis that was looked at, whatever its strings contain; a verdict that a
constant in parentheses follows `rescue` by reading that constant and the parenthesis; a verdict
about a parameter by reading its name, and its colon if it has a type. Asking changes neither what
the cursor shows nor what it does from there on. -/
theorem keeps_verdicts (source : String) (operations : List Cursor.Operation) (before : Parser)
    (options : ParseOptions) (deeper : Request → Parse NodeId)
    (halted : before.isHalted = true → before.errors ≠ #[]) :
    let parser := before.withCursor ((Parser.start source).2.cursor.performAll operations).2
    let grammar : Grammar := ⟨options, (Parser.start source).1, Parser.rounds source, deeper⟩
    grammar.KeepsImport parser ∧ Grammar.KeepsFilter parser ∧ grammar.KeepsParameter parser := by
  have begins := Parser.begins_start source
  have start := Parser.readBy_start source
  generalize Parser.start source = begun at begins start ⊢
  obtain ⟨taken, rest, moves, _⟩ := Cursor.takes_performAll operations begins.ready.pending
  have ready := ((Parser.Passes.of_moves moves).ready begins.ready).exchange halted
  have readBy := (start.performAll operations).2
  exact ⟨Parser.keepsImport rfl rfl ready readBy, Parser.keepsFilter ready readBy,
    Parser.keepsParameter ready readBy⟩

/-- In a program with all three, every verdict is a yes. -/
theorem keeps_verdicts_program :
    let source := "x = require(\"a)\", as: \"b\")\nbegin\nrescue (E)\nend\ndef f(p :int)\nend"
    let begun := Parser.start source
    let place := fun count =>
      begun.2.withCursor (begun.2.cursor.performAll (List.replicate count .advance)).2
    let grammar : Grammar := ⟨.usual, begun.1, Parser.rounds source, fun _ => Grammar.refuse 0⟩
    (Lookahead.startsImport begun.1.importName begun.1.asKey (place 0).cursor).1 = true ∧
      (Lookahead.isRescueFilter (place 16).cursor).1 = true ∧
      (Lookahead.parameter? (place 23).cursor).1 = some .typed ∧
      ∀ count, grammar.KeepsImport (place count) ∧ Grammar.KeepsFilter (place count) ∧
        grammar.KeepsParameter (place count) := by
  refine ⟨by decide +kernel, by decide +kernel, by decide +kernel, fun count => ?_⟩
  refine keeps_verdicts _ (List.replicate count .advance) _ .usual _ ?_
  rw [Parser.start_eq]
  nofun

end Vibescript
