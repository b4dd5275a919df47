import Vibescript.Proofs.Parser.Expressions

/-!
# Readings whose course is known

Where the kinds of the tokens ahead are known, so is what a reading does with them. A parser
faces the kinds of the ordinary tokens that are pending. A reading succeeds on its way to other
kinds when it cannot fail, reports nothing and leaves the parser facing those.
-/
namespace Vibescript

namespace Parser

/-- The kinds of the ordinary tokens that are pending. -/
def Faces (soft : SoftNames) (rounds : Nat) (parser : Parser) (kinds : List (TokenKind String)) :
    Prop :=
  ∃ tokens, parser.Ready soft rounds tokens ∧ Token.kinds tokens = kinds

/-- A parser takes tokens and builds nodes without reporting an error. -/
structure Goes (before after : Parser) : Prop where
  /-- Nodes and names are added. -/
  forest : before.forest.Grows after.forest
  /-- No error is reported. -/
  errors : after.errors = before.errors
  /-- The parser is not halted. -/
  halted : after.isHalted = before.isHalted

/-- Going nowhere. -/
theorem Goes.refl (parser : Parser) : parser.Goes parser := ⟨.refl _, rfl, rfl⟩

/-- Going on. -/
theorem Goes.trans {first second third : Parser} (left : first.Goes second)
    (right : second.Goes third) : first.Goes third :=
  ⟨left.forest.trans right.forest, right.errors.trans left.errors,
    right.halted.trans left.halted⟩

end Parser

/-- A reading cannot fail; it leads to a parser that faces other kinds, and its answer has a
property. -/
def Parse.Succeeds {α : Type} (soft : SoftNames) (rounds : Nat) (reading : Parse α)
    (start : Parser) (rest : List (TokenKind String)) (holds : α → Forest → Prop) : Prop :=
  reading.Outcome start
    (fun answer after => start.Goes after ∧ after.Faces soft rounds rest ∧
      holds answer after.forest)
    fun _ _ => False

namespace Parse.Succeeds

variable {α β : Type} {soft : SoftNames} {rounds : Nat} {reading : Parse α}
  {next : α → Parse β} {start now : Parser} {rest middle : List (TokenKind String)}
  {holds weaker : α → Forest → Prop} {last : β → Forest → Prop}

/-- A weaker property holds as well. -/
theorem imp (succeeds : reading.Succeeds soft rounds start rest holds)
    (implies : ∀ answer forest, holds answer forest → weaker answer forest) :
    reading.Succeeds soft rounds start rest weaker :=
  Outcome.imp succeeds fun _ _ ⟨goes, faces, known⟩ => ⟨goes, faces, implies _ _ known⟩

/-- What is known of a reading whose course is known. -/
theorem also {success : α → Parser → Prop} {failure : ParseError → Parser → Prop}
    (succeeds : reading.Succeeds soft rounds start rest holds)
    (outcome : reading.Outcome start success failure) :
    reading.Outcome start
      (fun answer after => success answer after ∧ start.Goes after ∧
        after.Faces soft rounds rest ∧ holds answer after.forest) failure :=
  (outcome.and succeeds).mono (fun _ _ both => both) fun _ _ both => both.1

/-- One reading after another. -/
theorem bind (first : reading.Succeeds soft rounds start middle holds)
    (second : ∀ answer now, start.Goes now → now.Faces soft rounds middle →
      holds answer now.forest → (next answer).Succeeds soft rounds now rest last) :
    Succeeds soft rounds (reading >>= next) start rest last := by
  refine Outcome.bind (Outcome.imp first fun answer now ⟨goes, faces, known⟩ => ?_)
  exact Outcome.imp (second answer now goes faces known) fun _ _ ⟨more, known⟩ =>
    ⟨goes.trans more, known⟩

/-- A reading that only answers. -/
theorem pure {answer : α} (faces : start.Faces soft rounds rest)
    (known : holds answer start.forest) :
    Succeeds soft rounds (Pure.pure answer) start rest holds :=
  Outcome.pure ⟨.refl start, faces, known⟩

end Parse.Succeeds

namespace Parser

open Build Parse

variable {soft : SoftNames} {rounds : Nat} {now : Parser} {kind : TokenKind String}
  {kinds : List (TokenKind String)}

/-- Asking for the current token. -/
theorem succeeds_current {α : Type} {next : Token Name → Parse α} {holds : α → Forest → Prop} :
    Succeeds soft rounds (liftM Build.current >>= next) now kinds holds ↔
      (next now.cursor.current).Succeeds soft rounds now kinds holds := Iff.rfl

/-- Asking whether the current token has a tag. -/
theorem succeeds_check {α : Type} {tag : Tag} {next : Bool → Parse α}
    {holds : α → Forest → Prop} :
    Succeeds soft rounds (liftM (Build.check tag) >>= next) now kinds holds ↔
      (next (now.cursor.check tag)).Succeeds soft rounds now kinds holds := Iff.rfl

/-- The tag of the current token is that of the first kind. -/
theorem Faces.tag (faces : now.Faces soft rounds kinds) :
    now.cursor.current.tag = TokenKind.tagAt kinds 0 := by
  obtain ⟨tokens, ready, rfl⟩ := faces
  exact ready.pending.tag

/-- The parser stands on the first kind. -/
theorem Faces.check (faces : now.Faces soft rounds kinds) (tag : Tag) :
    now.cursor.check tag = (TokenKind.tagAt kinds 0 == tag) := by
  rw [Cursor.check, faces.tag]

/-- The parser stands on a kind that it faces. -/
theorem Faces.check_self (faces : now.Faces soft rounds (kind :: kinds)) :
    now.cursor.check kind.tag = true := by
  rw [faces.check]
  exact beq_self_eq_true kind.tag

/-- Every kind is a token that can be taken. -/
theorem Faces.length_lt (faces : now.Faces soft rounds kinds) : kinds.length < rounds := by
  obtain ⟨tokens, ready, rfl⟩ := faces
  have fewer : (Token.ordinary tokens).length ≤ tokens.length := List.length_filter_le _ _
  have weight : ∀ tokens : List (Token String), tokens.length ≤ Consumes.weight tokens := by
    intro tokens
    induction tokens with
    | nil => exact Nat.le_refl _
    | cons token tokens ih =>
      rw [Consumes.weight_cons, List.length_cons]
      split <;> omega
  have bound := ready.rounds
  have enough := weight tokens
  rw [Token.kinds, List.length_map]
  omega

/-- The current token is the first kind that a parser faces, and stepping over it leads to the
others. -/
theorem Faces.step (faces : now.Faces soft rounds (kind :: kinds)) :
    now.cursor.isAtEnd = false ∧ now.cursor.current.kind.map now.forest.names.text = kind ∧
      now.cursor.current.kind.Known now.forest.names ∧
      now.Goes (now.withCursor now.cursor.advance.2) ∧
      (now.withCursor now.cursor.advance.2).Faces soft rounds kinds := by
  obtain ⟨tokens, ready, whole⟩ := faces
  have notEnd : now.cursor.isAtEnd = false := by
    cases atEnd : now.cursor.isAtEnd with
    | false => rfl
    | true =>
      rw [Token.kinds, (ready.pending.atEnd atEnd).2.2] at whole
      contradiction
  obtain ⟨before, left, rfl, directive, plain, known⟩ := ready.pending.ahead notEnd
  have passes := Passes.of_moves (Cursor.moves_advance ready.pending directive notEnd)
  rw [Token.kinds_append_cons directive (by rwa [Token.isDirective_written])] at whole
  obtain ⟨rfl, rfl⟩ := List.cons.inj whole
  exact ⟨notEnd, rfl, known, ⟨passes.forest, rfl, rfl⟩, left, passes.ready ready, rfl⟩

/-- A token that is there is stepped over. -/
theorem succeeds_advance (faces : now.Faces soft rounds (kind :: kinds)) :
    Succeeds soft rounds (liftM Build.advance) now kinds fun token forest =>
      token = now.cursor.current ∧ token.kind.map forest.names.text = kind ∧
        token.kind.Known forest.names := by
  obtain ⟨_, same, known, goes, more⟩ := faces.step
  refine .lift (outcome_onCursor.mpr ⟨goes, more, now.cursor.advance_fst, ?_, ?_⟩)
  · rw [now.cursor.advance_fst, known.map_text goes.forest.names]
    exact same
  · rw [now.cursor.advance_fst]
    exact known.mono goes.forest.names

/-- A word that is there is eaten. -/
theorem succeeds_eat (faces : now.Faces soft rounds (kind :: kinds)) :
    Succeeds soft rounds (liftM (Build.eat kind.tag)) now kinds fun eaten _ => eaten = true := by
  obtain ⟨_, _, _, goes, more⟩ := faces.step
  refine .lift (outcome_onCursor.mpr ?_)
  rw [Cursor.eat, if_pos faces.check_self]
  exact ⟨goes, more, rfl⟩

/-- A word that is not there is not eaten. -/
theorem succeeds_eat_none (faces : now.Faces soft rounds kinds) {tag : Tag}
    (other : TokenKind.tagAt kinds 0 ≠ tag) :
    Succeeds soft rounds (liftM (Build.eat tag)) now kinds fun eaten _ => eaten = false := by
  refine .lift (outcome_onCursor.mpr ?_)
  rw [Cursor.eat, faces.check, if_neg (by rwa [beq_iff_eq])]
  exact ⟨.refl now, faces, rfl⟩

/-- A word that is there is expected. -/
theorem succeeds_expect (faces : now.Faces soft rounds (kind :: kinds)) (construct : Construct) :
    (Parse.expect kind.tag construct).Succeeds soft rounds now kinds fun token _ =>
      token = now.cursor.current := by
  refine succeeds_check.mpr ?_
  rw [if_pos faces.check_self]
  exact (succeeds_advance faces).imp fun _ _ ⟨same, _⟩ => same

/-- An identifier that is there is expected. -/
theorem succeeds_expectIdentifier {text : String}
    (faces : now.Faces soft rounds (.identifier text :: kinds)) (construct : Construct) :
    (Parse.expectIdentifier construct).Succeeds soft rounds now kinds fun found forest =>
      forest.names.Holds found.1 ∧ forest.names.text found.1 = text ∧
        found.2 = now.cursor.current.span := by
  obtain ⟨_, same, _⟩ := faces.step
  refine succeeds_current.mpr ?_
  split
  · next name isName =>
    refine .bind (succeeds_advance faces)
      fun token after _ more ⟨isToken, reads, known⟩ => .pure more ?_
    rw [isToken, isName] at reads known
    exact ⟨known name rfl, TokenKind.identifier.inj reads, rfl⟩
  · next other =>
    cases isKind : now.cursor.current.kind <;> rw [isKind] at same <;>
      first
      | exact absurd isKind (other _)
      | contradiction

/-- An arena that grows leaves what a parser faces. -/
theorem Faces.withArena {arena : Arena} (faces : now.Faces soft rounds kinds)
    (grows : now.arena.Grows arena) :
    now.Goes (now.withArena arena) ∧ (now.withArena arena).Faces soft rounds kinds := by
  obtain ⟨tokens, ready, same⟩ := faces
  have passes := Passes.of_grows ready.pending grows
  exact ⟨⟨passes.forest, rfl, rfl⟩, tokens, passes.ready ready, same⟩

/-- A text is interned. -/
theorem succeeds_intern (faces : now.Faces soft rounds kinds) (text : String) :
    Succeeds soft rounds (liftM (Build.intern text)) now kinds fun name forest =>
      forest.names.Holds name ∧ forest.names.text name = text := by
  obtain ⟨tokens, ready, same⟩ := faces
  have passes := Passes.of_moves (Cursor.looks_intern ready.pending text).moves
  have sound := ready.pending.sound
  exact .lift (outcome_onCursor.mpr ⟨⟨passes.forest, rfl, rfl⟩,
    ⟨tokens, passes.ready ready, same⟩, NameTable.holds_intern sound text,
    NameTable.text_intern sound text⟩)

/-- A node is added. -/
theorem succeeds_addNode (faces : now.Faces soft rounds kinds) (node : NodeKind) (span : Span) :
    Succeeds soft rounds (liftM (Build.addNode node span)) now kinds fun id forest =>
      ∃ span, forest.arena.node? id = some ⟨node, span⟩ := by
  obtain ⟨goes, more⟩ := faces.withArena (now.arena.grows_add node span)
  exact .lift (outcome_onArena.mpr ⟨goes, more, span, now.arena.node?_add node span⟩)

/-- A node is closed. -/
theorem succeeds_close (faces : now.Faces soft rounds kinds) (node : NodeKind) (span : Span) :
    Succeeds soft rounds (liftM (Build.close node span)) now kinds fun id forest =>
      ∃ span, forest.arena.node? id = some ⟨node, span⟩ :=
  succeeds_addNode faces node _

/-- A list of children is added. -/
theorem succeeds_addList (faces : now.Faces soft rounds kinds) (ids : Array NodeId) :
    Succeeds soft rounds (liftM (Build.addList ids)) now kinds fun range forest =>
      forest.arena.Contains range ∧ forest.arena.list range = ids.toList := by
  obtain ⟨goes, more⟩ := faces.withArena (now.arena.grows_addList ids.toList)
  exact .lift (outcome_onArena.mpr ⟨goes, more, now.arena.contains_addList ids.toList,
    now.arena.list_addList ids.toList⟩)

/-- The pieces of a string literal that are left, with the text of those that were read. -/
def FacesPieces (soft : SoftNames) (rounds : Nat) (start : Parser)
    (rest : List (TokenKind String)) (whole : String) (count : Nat) (text : String)
    (now : Parser) : Prop :=
  ∃ pieces : List (TokenKind String), start.Goes now ∧
    now.Faces soft rounds (pieces ++ .stringClose :: rest) ∧
    (∀ piece ∈ pieces, piece.pieceText?.isSome = true) ∧
    text ++ String.join (pieces.filterMap TokenKind.pieceText?) = whole ∧ pieces.length = count

/-- A string literal that is there is read, and its value is the text of its pieces. -/
theorem succeeds_stringLiteral {grammar : Grammar} (sameRounds : grammar.rounds = rounds)
    {pieces : List (TokenKind String)}
    (faces : now.Faces soft rounds (.stringOpen :: (pieces ++ .stringClose :: kinds)))
    (all : ∀ piece ∈ pieces, piece.pieceText?.isSome = true) :
    grammar.stringLiteral.Succeeds soft rounds now kinds fun id forest =>
      ∃ value span, forest.arena.node? id = some ⟨.string value, span⟩ ∧
        forest.names.Holds value ∧
        forest.names.text value = String.join (pieces.filterMap TokenKind.pieceText?) := by
  unfold Grammar.stringLiteral
  refine .bind (succeeds_expect faces .string) fun opening now _ faces _ => ?_
  have less : pieces.length < grammar.rounds := by
    have bound := faces.length_lt
    rw [List.length_append] at bound
    rw [sameRounds]
    omega
  have begins : now.FacesPieces soft rounds kinds
      (String.join (pieces.filterMap TokenKind.pieceText?)) pieces.length "" now :=
    ⟨pieces, .refl now, faces, all, by simp, rfl⟩
  refine .bind (show Succeeds soft rounds _ now kinds fun text _ =>
      text = String.join (pieces.filterMap TokenKind.pieceText?) from
    Parse.Outcome.repeatWithin _ (fun count text parser reads => ?_) less begins)
      fun text now _ faces same => ?_
  · obtain ⟨left, goes, faces, isPiece, joined, rfl⟩ := reads
    refine Parse.outcome_cursor.mpr ?_
    cases left with
    | nil =>
      obtain ⟨_, same, _, more, faces⟩ := faces.step
      have ended : text = String.join (pieces.filterMap TokenKind.pieceText?) := by
        simpa using joined
      cases isKind : parser.cursor.current.kind <;> rw [isKind] at same <;>
        first
        | contradiction
        | exact .bind (.lift (outcome_onCursor.mpr (.pure ⟨goes.trans more, faces, ended⟩)))
    | cons piece left =>
      obtain ⟨_, same, _, more, faces⟩ := faces.step
      have known : piece.pieceText?.isSome = true := isPiece piece List.mem_cons_self
      have next : ∀ text' : String, piece.pieceText? = some text' →
          Round (now.FacesPieces soft rounds kinds
            (String.join (pieces.filterMap TokenKind.pieceText?)))
            (fun text after => now.Goes after ∧ after.Faces soft rounds kinds ∧
              text = String.join (pieces.filterMap TokenKind.pieceText?)) (piece :: left).length
            (.yield (text ++ text')) (parser.withCursor parser.cursor.advance.2) := by
        intro text' isText
        refine ⟨left.length, Nat.lt_succ_self _, left, goes.trans more, faces,
          fun piece member => isPiece piece (List.mem_cons_of_mem _ member), ?_, rfl⟩
        rw [← joined, List.filterMap_cons_some isText, String.join_cons, String.append_assoc]
      cases isKind : parser.cursor.current.kind <;> rw [isKind] at same
      case stringContent run =>
        exact .bind (.lift (outcome_onCursor.mpr (.pure (next _ (same ▸ rfl)))))
      case stringEscape char =>
        refine .bind (.lift (outcome_onCursor.mpr (.pure ?_)))
        rw [← String.append_singleton]
        exact next _ (same ▸ rfl)
      all_goals
        rw [← same] at known
        contradiction
  · refine .bind (succeeds_intern faces text) fun value now _ faces ⟨holds, reads⟩ => ?_
    refine Parse.Outcome.imp (succeeds_close faces _ _) fun id after ⟨more, faces, span, found⟩ =>
      ⟨more, faces, value, span, found, ?_⟩
    rw [more.forest.names.text holds, reads, same]
    exact ⟨more.forest.names.holds holds, rfl⟩

end Parser

end Vibescript
