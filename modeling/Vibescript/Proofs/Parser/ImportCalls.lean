import Vibescript.Proofs.Parser.Traversal
import Vibescript.Proofs.Parser.Verdicts

/-!
# An import, and the call that stands in its place

The tokens of an import, with another name for the import function, are an assignment of a call.
Both readings take the same tokens: the import in every case, the assignment if the nesting limit
leaves room for it and nothing goes on with it.
-/
namespace Vibescript

open Build Parse Grammar

/-- Only the pieces of a string literal have their tags. -/
theorem TokenKind.eq_piece {ν : Type} {kind : TokenKind ν}
    (same : kind.tag = .stringContent ∨ kind.tag = .stringEscape) :
    (∃ run, kind = .stringContent run) ∨ ∃ char, kind = .stringEscape char := by
  cases kind <;> first
    | exact .inl ⟨_, rfl⟩
    | exact .inr ⟨_, rfl⟩
    | rcases same with same | same <;>
        first | contradiction | exact absurd same (fixed_tag_ne _ rfl)

namespace Tag

/-- Tags of what stands between quotation marks. -/
def ArePieces (pieces : List Tag) : Prop :=
  ∀ piece ∈ pieces, piece = .stringContent ∨ piece = .stringEscape

/-- The tags of a string literal. -/
def ofString (pieces : List Tag) : List Tag := .stringOpen :: (pieces ++ [.stringClose])

/-- The tags of the local name of an import, if it has one. -/
def ofLocalName : Option (List Tag) → List Tag
  | none => []
  | some pieces => .comma :: .identifier :: .colon :: ofString pieces

/-- The tags of a call of the import function. -/
def ofCall (path : List Tag) (localName : Option (List Tag)) : List Tag :=
  .identifier :: .leftParen :: (ofString path ++ (ofLocalName localName ++ [.rightParen]))

/-- The tags of an import. -/
def ofImport (path : List Tag) (localName : Option (List Tag)) : List Tag :=
  .identifier :: .assign :: ofCall path localName

end Tag

namespace Parse.Traverses

variable {source : String} {soft : SoftNames} {rounds : Nat} {refuses : Prop} {grammar : Grammar}
  {run path tags : List Tag} {localName : Option (List Tag)} {next : Tag} {id : NodeId}
  {least : BindingPower}

/-- A node is closed. -/
theorem close {kind : NodeKind} (plain : kind ≠ .error) (start : Span) :
    Traverses source soft rounds refuses (liftM (Build.close kind start)) [] next fun _ => True :=
  .still (isStill_close plain start)

/-- Tokens between quotation marks, up to the second. -/
theorem pieces (arePieces : Tag.ArePieces run) {count : Nat} (enough : run.length ≤ count)
    (text : String) :
    Traverses source soft rounds refuses (repeatWithin pieceStep (count + 1) text)
      (run ++ [.stringClose]) next fun _ => True := by
  induction run generalizing count text with
  | nil =>
    refine .done (.cursor fun cursor closes => ?_)
    rw [TokenKind.eq_stringClose (show cursor.current.kind.tag = .stringClose from closes)]
    exact .take .advance fun _ _ => .pure ⟨text, rfl, trivial⟩
  | cons piece run ih =>
    obtain ⟨count, rfl⟩ : ∃ fewer, count = fewer + 1 := by
      rw [List.length_cons] at enough
      exact ⟨count - 1, by omega⟩
    have others : Tag.ArePieces run := fun tag member => arePieces tag (.tail _ member)
    have more (later : String) := ih others (Nat.le_of_succ_le_succ enough) later
    have round : Traverses source soft rounds refuses (pieceStep text) [piece]
        (Tag.firstOf (run ++ [.stringClose]) next)
        fun result => ∃ later, result = .yield later ∧ True := by
      refine .cursor fun cursor isPiece => ?_
      replace isPiece : cursor.current.kind.tag = piece := isPiece
      rcases TokenKind.eq_piece (isPiece ▸ arePieces piece (.head _)) with ⟨_, same⟩ | ⟨_, same⟩
      · rw [same]
        exact .take .advance fun _ _ => .pure ⟨_, rfl, trivial⟩
      · rw [same]
        exact .take .advance fun _ _ => .pure ⟨_, rfl, trivial⟩
    rw [show piece :: run ++ [Tag.stringClose] = [piece] ++ (run ++ [.stringClose]) from rfl]
    exact .yield round fun later _ => more later

/-- A string literal. -/
theorem stringLiteral (sameRounds : grammar.rounds = rounds) (arePieces : Tag.ArePieces run) :
    Traverses source soft rounds refuses grammar.stringLiteral (Tag.ofString run) next
      fun _ => True := by
  rw [stringLiteral_eq, Tag.ofString, ← List.append_nil (run ++ [Tag.stringClose])]
  have value (next : Tag) : Traverses source soft rounds refuses (grammar.loop "" pieceStep)
      (run ++ [.stringClose]) next fun _ => True := by
    refine .loop sameRounds fun count enough => .pieces arePieces ?_ ""
    rw [List.length_append] at enough
    omega
  exact .take .expect fun _ _ => .bind (value _) fun value _ =>
    .rest (.still (isStill_intern value)) fun _ _ => .close (by nofun) _

/-- The local name of an import. -/
theorem asName? (sameRounds : grammar.rounds = rounds)
    (arePieces : ∀ run ∈ localName, Tag.ArePieces run) (ends : next ≠ .comma) :
    Traverses source soft rounds refuses grammar.asName? (Tag.ofLocalName localName) next
      fun _ => True := by
  cases localName with
  | none =>
    refine .rest (.eat_none ends) fun eaten isEaten => ?_
    rw [isEaten]
    exact .pure trivial
  | some run =>
    refine .take .eat fun eaten isEaten => ?_
    rw [isEaten]
    refine .take .expectIdentifier fun _ _ => .take .expect fun _ _ => ?_
    rw [← List.append_nil (Tag.ofString run)]
    exact .bind (.stringLiteral sameRounds (arePieces run rfl)) fun _ _ => .pure trivial

/-- An import takes its tokens, and nothing refuses it. -/
theorem requireImport (sameRounds : grammar.rounds = rounds) (isPath : Tag.ArePieces path)
    (isLocal : ∀ run ∈ localName, Tag.ArePieces run) :
    Traverses source soft rounds refuses grammar.requireImport (Tag.ofImport path localName) next
      fun _ => True := by
  unfold Grammar.requireImport
  refine .take .expectIdentifier fun found _ => ?_
  refine .rest (.still (isStill_addNode (by nofun) _)) fun target _ => ?_
  refine .take .expect fun _ _ => .take .expectIdentifier fun _ _ => ?_
  refine .take .expect fun _ _ => ?_
  refine .bind (.stringLiteral sameRounds isPath) fun path _ => ?_
  refine .bind (.asName? sameRounds isLocal Tag.noConfusion) fun asName _ => ?_
  exact .take .expect fun _ _ => .close (by nofun) _

/-- Nothing goes on with an operand. -/
theorem chain_ends (sameRounds : grammar.rounds = rounds) (notMember : next ≠ .dot)
    (notIndex : next ≠ .leftBracket) :
    Traverses source soft rounds refuses (grammar.chain id) [] next fun _ => True := by
  rw [chain_eq]
  refine .loop sameRounds fun count _ => .done (.nodeSpan fun span => .currentTag ?_)
  dsimp only [Tag.firstOf, List.head?_nil, Option.getD_none]
  split
  · contradiction
  · contradiction
  · exact .pure ⟨_, rfl, trivial⟩

/-- No operator follows. -/
theorem infixes_end (sameRounds : grammar.rounds = rounds) (ends : InfixOp.ofTag? next = none) :
    Traverses source soft rounds refuses (grammar.loop id (grammar.infixStep least)) [] next
      fun _ => True := by
  refine .loop sameRounds fun count _ => .done (.currentTag ?_)
  rw [show InfixOp.ofTag? (Tag.firstOf [] next) = none from ends]
  exact .pure ⟨_, rfl, trivial⟩

/-- A string literal and nothing else. -/
theorem string_expressionFrom (sameRounds : grammar.rounds = rounds)
    (arePieces : Tag.ArePieces run) (separates : next.separates = true) :
    Traverses source soft rounds refuses (grammar.expressionFrom least) (Tag.ofString run) next
      fun _ => True := by
  have primary (next : Tag) : Traverses source soft rounds refuses grammar.primary
      (Tag.ofString run) next fun _ => True := by
    refine .current fun token opens => ?_
    rw [TokenKind.eq_stringOpen (show token.kind.tag = .stringOpen from opens)]
    exact .stringLiteral sameRounds arePieces
  have ends (tag : Tag) (other : tag.separates = false) : next ≠ tag := by
    rintro rfl
    rw [separates] at other
    contradiction
  have loose : InfixOp.ofTag? next = none := by
    revert separates
    cases next <;> first | exact fun _ => rfl | exact fun separates => Bool.noConfusion separates
  have operand : Traverses source soft rounds refuses grammar.operand (Tag.ofString run) next
      fun _ => True := by
    refine .currentTag ?_
    rw [← List.append_nil (Tag.ofString run)]
    exact .bind (primary _) fun _ _ => .chain_ends sameRounds (ends _ rfl) (ends _ rfl)
  rw [expressionFrom_eq, ← List.append_nil (Tag.ofString run)]
  exact .bind operand fun _ _ => .infixes_end sameRounds loose

/-- Refusing to go deeper reports nothing. -/
theorem refuse {limit : Nat} (mayFail : refuses) {holds : NodeId → Prop} :
    Traverses source soft rounds refuses (Grammar.refuse limit) tags next holds := by
  intro parser read rest _ _ unspoilt
  show Build.Outcome (Grammar.refuse limit).run parser _
  rw [Build.Outcome, Parser.run_refuse]
  exact ⟨mayFail, unspoilt.errors, unspoilt.goesOn⟩

/-- At every level that has room for it, a string literal and nothing else. -/
theorem string_descend (mayFail : refuses) (options : ParseOptions) (arePieces : Tag.ArePieces run)
    (separates : next.separates = true) (levels : Nat) :
    Traverses source soft rounds refuses (descend options soft rounds levels (.expression least))
      (Tag.ofString run) next fun _ => True := by
  cases levels with
  | zero => exact .refuse mayFail
  | succ levels =>
    rw [descend_succ]
    exact .string_expressionFrom rfl arePieces separates

variable (strings : ∀ {run next}, Tag.ArePieces run → next.separates = true →
  Traverses source soft rounds refuses grammar.expression (Tag.ofString run) next fun _ => True)

include strings

/-- A string literal as an argument. -/
theorem string_argument (arePieces : Tag.ArePieces run) (separates : next.separates = true) :
    Traverses source soft rounds refuses grammar.argument (Tag.ofString run) next
      fun _ => True := by
  refine .current fun token opens => ?_
  rw [TokenKind.eq_stringOpen (show token.kind.tag = .stringOpen from opens)]
  exact strings arePieces separates

/-- A string literal with a key as an argument. -/
theorem keyed_argument (arePieces : Tag.ArePieces run) (separates : next.separates = true) :
    Traverses source soft rounds refuses grammar.argument
      (.identifier :: .colon :: Tag.ofString run) next fun _ => True := by
  refine .current fun token isName => ?_
  obtain ⟨name, isKind⟩ := TokenKind.eq_identifier (show token.kind.tag = .identifier from isName)
  rw [isKind]
  refine .isKeyword ?_
  refine .take .advance fun _ _ => .unsplit Tag.noConfusion ?_
  refine .take .advance fun _ _ => ?_
  refine .rest (.still (isStill_addNode (by nofun) _)) fun key _ => ?_
  rw [← List.append_nil (Tag.ofString run)]
  exact .bind (strings arePieces separates) fun _ _ => .close (by nofun) _

omit strings in
/-- The last argument of a list. -/
theorem last_item {closer : Tag} {reading : Parse NodeId} {ids : Array NodeId}
    (item : Traverses source soft rounds refuses reading tags closer fun _ => True)
    (opens : Tag.firstOf tags closer ≠ closer) (notComma : closer ≠ .comma) :
    Traverses source soft rounds refuses (itemStep closer reading ids) tags closer
      fun result => ∃ answer, result = .done answer ∧ True := by
  refine .check_other opens ?_
  rw [if_neg Bool.false_ne_true, ← List.append_nil tags]
  refine .bind item fun id _ => .rest (.eat_none notComma) fun eaten isEaten => ?_
  rw [isEaten]
  exact .pure ⟨_, rfl, trivial⟩

omit strings in
/-- An argument with a comma after it. -/
theorem next_item {closer : Tag} {reading : Parse NodeId} {ids : Array NodeId}
    (item : Traverses source soft rounds refuses reading tags .comma fun _ => True)
    (opens : Tag.firstOf tags .comma ≠ closer) :
    Traverses source soft rounds refuses (itemStep closer reading ids) (tags ++ [.comma]) next
      fun result => ∃ answer, result = .yield answer ∧ True := by
  have first : Tag.firstOf (tags ++ [.comma]) next ≠ closer := by
    cases tags <;> exact opens
  refine .check_other first ?_
  rw [if_neg Bool.false_ne_true]
  refine .bind item fun id _ => .take .eat fun eaten isEaten => ?_
  rw [isEaten]
  exact .pure ⟨_, rfl, trivial⟩

/-- The arguments of an import: a path and perhaps a local name. -/
theorem arguments (sameRounds : grammar.rounds = rounds) (isPath : Tag.ArePieces path)
    (isLocal : ∀ run ∈ localName, Tag.ArePieces run) :
    Traverses source soft rounds refuses grammar.arguments
      (.leftParen :: (Tag.ofString path ++ (Tag.ofLocalName localName ++ [.rightParen]))) next
      fun _ => True := by
  have items : Traverses source soft rounds refuses
      (grammar.itemsUntil .rightParen grammar.argument)
      (Tag.ofString path ++ Tag.ofLocalName localName) .rightParen fun _ => True := by
    rw [itemsUntil_eq]
    refine .loop sameRounds fun count enough => ?_
    cases localName with
    | none =>
      rw [Tag.ofLocalName, List.append_nil]
      exact .done (.last_item (.string_argument strings isPath rfl) Tag.noConfusion Tag.noConfusion)
    | some run =>
      obtain ⟨count, rfl⟩ : ∃ fewer, count = fewer + 1 := by
        rw [List.length_append, Tag.ofLocalName, List.length_cons] at enough
        exact ⟨count - 1, by omega⟩
      rw [show Tag.ofString path ++ Tag.ofLocalName (some run) =
        (Tag.ofString path ++ [.comma]) ++ (.identifier :: .colon :: Tag.ofString run) by
          simp [Tag.ofLocalName]]
      refine .yield (.next_item (.string_argument strings isPath rfl) Tag.noConfusion)
        fun _ _ => .done ?_
      exact .last_item (.keyed_argument strings (isLocal run rfl) rfl) Tag.noConfusion
        Tag.noConfusion
  rw [← List.append_assoc]
  refine .take .expect fun _ _ => .bind items fun ids _ => .take .expectCloser fun _ _ => ?_
  exact .still (isStill_addList ids)

/-- A call of the import function, unless a block follows. -/
theorem call_primary (sameRounds : grammar.rounds = rounds) (isPath : Tag.ArePieces path)
    (isLocal : ∀ run ∈ localName, Tag.ArePieces run) (notBlock : next ≠ .kwDo) :
    Traverses source soft rounds refuses grammar.primary (Tag.ofCall path localName) next
      fun _ => True := by
  refine .current fun token isName => ?_
  obtain ⟨name, isKind⟩ := TokenKind.eq_identifier (show token.kind.tag = .identifier from isName)
  rw [isKind]
  refine .take .advance fun token _ => .check ?_
  rw [if_pos rfl, ← List.append_nil (Tag.leftParen :: _)]
  have block : Traverses source soft rounds refuses grammar.block? [] next fun _ => True :=
    .check_other notBlock (.pure trivial)
  exact .bind (.arguments strings sameRounds isPath isLocal) fun _ _ => .rest block fun _ _ =>
    .close (by nofun) _

/-- A call of the import function by itself. -/
theorem call_expressionFrom (sameRounds : grammar.rounds = rounds) (isPath : Tag.ArePieces path)
    (isLocal : ∀ run ∈ localName, Tag.ArePieces run)
    (ends : Lookahead.continuesExpression next = false) :
    Traverses source soft rounds refuses (grammar.expressionFrom least)
      (Tag.ofCall path localName) next fun _ => True := by
  have apart (tag : Tag) (continues : Lookahead.continuesExpression tag = true) : next ≠ tag := by
    rintro rfl
    rw [ends] at continues
    contradiction
  have loose : InfixOp.ofTag? next = none := by
    cases isOp : InfixOp.ofTag? next with
    | none => rfl
    | some op => simp [Lookahead.continuesExpression, isOp] at ends
  have operand : Traverses source soft rounds refuses grammar.operand (Tag.ofCall path localName)
      next fun _ => True := by
    refine .currentTag ?_
    rw [← List.append_nil (Tag.ofCall path localName)]
    exact .bind (.call_primary strings sameRounds isPath isLocal (apart _ rfl)) fun _ _ =>
      .chain_ends sameRounds (apart _ rfl) (apart _ rfl)
  rw [expressionFrom_eq, ← List.append_nil (Tag.ofCall path localName)]
  exact .bind operand fun _ _ => .infixes_end sameRounds loose

omit strings in
/-- A name that something is assigned to. -/
theorem target_operand (sameRounds : grammar.rounds = rounds) :
    Traverses source soft rounds refuses grammar.operand [.identifier] .assign fun _ => True := by
  have primary : Traverses source soft rounds refuses grammar.primary [.identifier] .assign
      fun _ => True := by
    refine .current fun token isName => ?_
    obtain ⟨name, isKind⟩ := TokenKind.eq_identifier (show token.kind.tag = .identifier from isName)
    rw [isKind]
    exact .take .advance fun token _ => .check_other Tag.noConfusion
      (.still (isStill_addNode (by nofun) _))
  refine .currentTag ?_
  rw [← List.append_nil [Tag.identifier]]
  exact .bind primary fun _ _ => .chain_ends sameRounds Tag.noConfusion Tag.noConfusion

omit strings in
/-- An assignment, and nothing goes on with it. -/
theorem assigns (sameRounds : grammar.rounds = rounds) (ends : InfixOp.ofTag? next = none)
    (value : Traverses source soft rounds refuses grammar.expression tags next fun _ => True) :
    Traverses source soft rounds refuses (grammar.expressionFrom .assignment)
      (.identifier :: .assign :: tags) next fun _ => True := by
  rw [expressionFrom_eq]
  refine .take (.target_operand sameRounds) fun target _ => .loop sameRounds fun count enough => ?_
  obtain ⟨count, rfl⟩ : ∃ fewer, count = fewer + 1 := by
    rw [List.length_cons] at enough
    exact ⟨count - 1, by omega⟩
  have round : Traverses source soft rounds refuses (grammar.infixStep .assignment target)
      (.assign :: tags) next fun result => ∃ later, result = .yield later ∧ True := by
    refine .currentTag (.take .advance fun _ _ => .nodeSpan fun span => ?_)
    rw [← List.append_nil tags]
    exact .bind value fun _ _ => .rest (.close (by nofun) _) fun _ _ => .pure ⟨_, rfl, trivial⟩
  rw [← List.append_nil (Tag.assign :: tags)]
  refine .yield round fun later _ => .done (.currentTag ?_)
  rw [show InfixOp.ofTag? (Tag.firstOf [] next) = none from ends]
  exact .pure ⟨_, rfl, trivial⟩

omit strings in
/-- An assignment of a call takes the tokens of an import, at every level that has room for it. -/
theorem import_descend (mayFail : refuses) (options : ParseOptions) (isPath : Tag.ArePieces path)
    (isLocal : ∀ run ∈ localName, Tag.ArePieces run)
    (ends : Lookahead.continuesExpression next = false) (levels : Nat) :
    Traverses source soft rounds refuses
      (descend options soft rounds levels (.expression .assignment)) (Tag.ofImport path localName)
      next fun _ => True := by
  have loose : InfixOp.ofTag? next = none := by
    cases isOp : InfixOp.ofTag? next with
    | none => rfl
    | some op => simp [Lookahead.continuesExpression, isOp] at ends
  have value (levels : Nat) : Traverses source soft rounds refuses
      (descend options soft rounds levels (.expression .assignment)) (Tag.ofCall path localName)
      next fun _ => True := by
    cases levels with
    | zero => exact .refuse mayFail
    | succ levels =>
      rw [descend_succ]
      have strings {run : List Tag} {next : Tag} (arePieces : Tag.ArePieces run)
          (separates : next.separates = true) :
          Traverses source soft rounds refuses (level options soft rounds levels).expression
            (Tag.ofString run) next fun _ => True :=
        .string_descend mayFail options arePieces separates levels
      exact .call_expressionFrom strings rfl isPath isLocal ends
  cases levels with
  | zero => exact .refuse mayFail
  | succ levels =>
    rw [descend_succ]
    have called : Traverses source soft rounds refuses (level options soft rounds levels).expression
      (Tag.ofCall path localName) next fun _ => True := value levels
    exact .assigns rfl loose called

end Parse.Traverses

end Vibescript
