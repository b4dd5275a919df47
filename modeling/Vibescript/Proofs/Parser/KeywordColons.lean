import Vibescript.Proofs.Parser.SoleStatement

/-!
# Colons after keys

The key of an argument or of an entry of a hash literal is followed by a colon and a value. A colon
that stands apart from the key and directly before a word is read with this word as a symbol, which
the grammar takes apart again. So space around the colon makes no difference, except that a symbol
ends before a question or exclamation mark: with the colon directly before it, a name with a mark is
no value.
-/
namespace Vibescript

open Build Parse Grammar TokenKind

/-- What follows a key, and what is left to read once the colon is split off and taken. -/
inductive TokenKind.OpensValue : List (TokenKind String) → List (TokenKind String) → Prop where
  /-- A colon. -/
  | colon (value : List (TokenKind String)) : OpensValue (.fixed .colon :: value) value
  /-- A symbol, which is a colon and a word. -/
  | symbol (word : String) (rest : List (TokenKind String)) :
    OpensValue (.symbol word :: rest) (ofWord word :: rest)

/-- The text of a word that is an expression by itself. -/
def wordText : TokenKind String → String
  | .identifier name => SyntaxTree.shown "identifier" [name] []
  | .constant name => SyntaxTree.shown "constant" [name] []
  | .fixed .kwTrue _ => SyntaxTree.shown "true" [] []
  | .fixed .kwFalse _ => SyntaxTree.shown "false" [] []
  | .fixed .kwNil _ => SyntaxTree.shown "nil" [] []
  | .fixed .kwSelf _ => SyntaxTree.shown "self" [] []
  | _ => ""

/-- The text of a key with its value. -/
def keyedText (production key value : String) : String :=
  SyntaxTree.shown production []
    [" key: " ++ SyntaxTree.shown "identifier" [key] [], " value: " ++ value]

namespace TokenKind

variable {kinds value : List (TokenKind String)} {kind : TokenKind String}

/-- A value follows a colon or a symbol. -/
theorem OpensValue.opens (opens : OpensValue kinds value) :
    (tagAt kinds 0).opensValue = true := by
  cases opens <;> rfl

/-- A mark that is no operator goes on with nothing. -/
theorem endsExpression_of_mark (plain : InfixOp.ofTag? (tagAt kinds 0) = none)
    (notBlock : tagAt kinds 0 ≠ .kwDo) (notArguments : tagAt kinds 0 ≠ .leftParen)
    (notMember : tagAt kinds 0 ≠ .dot) (notIndex : tagAt kinds 0 ≠ .leftBracket)
    (least : BindingPower) : EndsExpression least kinds := by
  refine ⟨⟨⟨notBlock, notArguments⟩, notMember, notIndex⟩, fun op isOp => ?_⟩
  rw [plain] at isOp
  contradiction

end TokenKind

namespace Parser

variable {soft : SoftNames} {rounds : Nat} {now : Parser} {grammar : Grammar}
  {kinds value after rest : List (TokenKind String)} {accepts : Prop}
  {holds : NodeId → Forest → Prop} {word key text : String}

/-- Before a value, a symbol becomes a colon and a word, and a colon stays. -/
theorem succeeds_splitColon (opens : OpensValue kinds value) (faces : now.Faces soft rounds kinds) :
    Succeeds soft rounds (liftM Build.splitSymbol) now (.fixed .colon :: value)
      fun _ _ => True := by
  cases opens with
  | colon => exact succeeds_splitSymbol faces Tag.noConfusion
  | symbol word rest =>
    obtain ⟨notEnd, same, _⟩ := faces.step
    obtain ⟨name, isSymbol⟩ := eq_symbol faces.tag
    obtain ⟨tokens, ready, whole⟩ := faces
    have current : now.cursor.current = ⟨.symbol name, now.cursor.current.span⟩ := by
      rw [← isSymbol]
    have spelled : now.cursor.nameText name = word := by
      rw [isSymbol] at same
      exact TokenKind.symbol.inj same
    obtain ⟨before, left, rfl, directive, plain, _⟩ := ready.pending.ahead notEnd
    have moves := (Cursor.moves_splitSymbol ready.pending directive current).1
    have passes := Passes.of_moves moves
    rw [Token.kinds_append_cons directive (by rwa [Token.isDirective_written])] at whole
    have split : Token.kinds (before ++ .colonOf now.cursor.current.span ::
        .wordOf (now.cursor.nameText name) now.cursor.current.span :: left) =
        .fixed .colon :: ofWord word :: rest := by
      have others : Token.kinds ([] ++ .wordOf (now.cursor.nameText name)
          now.cursor.current.span :: left) = _ :=
        Token.kinds_append_cons nofun (isDirective_ofWord _)
      rw [Token.kinds_append_cons directive rfl]
      rw [List.nil_append] at others
      rw [others, (List.cons.inj whole).2, ← spelled]
      rfl
    exact .lift (outcome_onCursor.mpr ⟨⟨passes.forest, rfl, rfl⟩,
      ⟨_, passes.ready ready, split⟩, trivial⟩)

/-- What is decided by a primary expression with nothing after it is decided by the operand. -/
theorem decides_operand (sameRounds : grammar.rounds = rounds)
    (plain : UnaryOp.ofTag? (tagAt kinds 0) = none) (ends : EndsOperand after)
    (faces : now.Faces soft rounds kinds)
    (reads : grammar.primary.Decides accepts soft rounds now after holds) :
    grammar.operand.Decides accepts soft rounds now after holds := by
  obtain ⟨count, enough⟩ : ∃ count, grammar.rounds = count + 1 :=
    ⟨rounds - 1, by have := faces.length_lt; omega⟩
  unfold Grammar.operand
  refine Parse.outcome_currentTag.mpr ?_
  rw [faces.tag, plain]
  simp only [chain_eq, enough]
  exact Decides.bind reads fun _ _ _ _ faces known => succeeds_chainEnd ends faces known

/-- What is decided by a primary expression with nothing after it is decided by the expression. -/
theorem decides_expressionFrom (sameRounds : grammar.rounds = rounds) {least : BindingPower}
    (plain : UnaryOp.ofTag? (tagAt kinds 0) = none) (ends : EndsExpression least after)
    (faces : now.Faces soft rounds kinds)
    (reads : grammar.primary.Decides accepts soft rounds now after holds) :
    (grammar.expressionFrom least).Decides accepts soft rounds now after holds := by
  obtain ⟨count, enough⟩ : ∃ count, grammar.rounds = count + 1 :=
    ⟨rounds - 1, by have := faces.length_lt; omega⟩
  rw [expressionFrom_eq]
  simp only [loop, enough]
  exact .bind (decides_operand sameRounds plain ends.toEndsOperand faces reads)
    fun _ _ _ _ faces known => succeeds_infixEnd ends faces known

/-- A token that is an expression by itself becomes a node. -/
theorem succeeds_leaf {kind : TokenKind String} {node : NodeKind} {words : List String}
    (faces : now.Faces soft rounds (kind :: rest)) (bare : node.fields = [])
    (attributes : ∀ after : Forest, now.forest.Grows after → ∀ root : NodeId,
      SyntaxTree.attributes ⟨after.arena, after.names, root⟩ node = words) :
    Succeeds soft rounds (liftM (Build.leaf node)) now rest fun id forest =>
      forest.Displays id (SyntaxTree.shown node.name words []) := by
  -- A leaf is one step; as a reading it is two.
  change Succeeds soft rounds (liftM Build.advance >>= fun token =>
    liftM (Build.addNode node token.span)) now rest _
  refine .bind (succeeds_advance faces) fun token later goes faces _ => ?_
  refine succeeds_shown faces ?_ (fun after grows => attributes after (goes.forest.trans grows))
    (bare ▸ .nil)
  rintro body rfl
  contradiction

/-- A word is a primary expression if it is one by itself. -/
theorem decides_word (ends : EndsName rest) (faces : now.Faces soft rounds (ofWord word :: rest)) :
    grammar.primary.Decides ((ofWord word).isOperand = true) soft rounds now rest fun id forest =>
      forest.Displays id (wordText (ofWord word)) := by
  unfold Grammar.primary
  refine decides_current.mpr ?_
  rcases ofWord_cases word with same | same | ⟨tag, spelled, same⟩
  · rw [same] at faces ⊢
    obtain ⟨_, reads, isKnown, _⟩ := faces.step
    obtain ⟨name, isName⟩ := eq_constant faces.tag
    rw [isName] at reads isKnown ⊢
    refine Succeeds.decides (succeeds_leaf faces rfl fun after grows root => ?_) rfl
    have spells : now.forest.names.Spells name word :=
      ⟨isKnown name rfl, TokenKind.constant.inj reads⟩
    exact congrArg (fun text => [text]) (spells.mono grows.names).2
  · rw [same] at faces ⊢
    obtain ⟨name, isName, spells⟩ := faces.identifier
    rw [isName]
    refine Succeeds.decides ?_ rfl
    refine .bind (succeeds_advance faces) fun token named goes faces _ => ?_
    refine succeeds_check.mpr ?_
    rw [faces.check, if_neg (by rw [beq_iff_eq]; exact ends.notArguments)]
    refine succeeds_shown faces nofun (fun after grows root => ?_) .nil
    exact congrArg (fun text => [text]) (spells.mono (goes.forest.trans grows).names).2
  · obtain ⟨isKeyword, _⟩ := of_ofWord_fixed same
    rw [same] at faces ⊢
    rw [eq_fixed faces.tag spelled]
    have leaf {node : NodeKind} (bare : node.fields = [])
        (plain : ∀ tree : SyntaxTree, tree.attributes node = []) :
        Succeeds soft rounds (liftM (Build.leaf node)) now rest fun id forest =>
          forest.Displays id (SyntaxTree.shown node.name [] []) :=
      succeeds_leaf faces bare fun _ _ _ => plain _
    cases tag with
    | kwTrue => exact (leaf rfl fun _ => rfl).decides rfl
    | kwFalse => exact (leaf rfl fun _ => rfl).decides rfl
    | kwNil => exact (leaf rfl fun _ => rfl).decides rfl
    | kwSelf => exact (leaf rfl fun _ => rfl).decides rfl
    | _ =>
      first
      | contradiction
      | exact Parse.outcome_unexpected.mpr (.throw nofun)

/-- A key becomes a node. -/
theorem succeeds_keyNode {start : Parser} {name : Name} {span : Span} (goes : start.Goes now)
    (faces : now.Faces soft rounds kinds) (spells : start.forest.names.Spells name key) :
    Succeeds soft rounds (liftM (Build.addNode (.identifier name) span)) now kinds fun id forest =>
      forest.Displays id (SyntaxTree.shown "identifier" [key] []) := by
  refine succeeds_shown faces nofun (fun after grows root => ?_) .nil
  exact congrArg (fun text => [text]) (spells.mono (goes.forest.trans grows).names).2

/-- A word as the value after a key. -/
theorem decides_value {levels : Nat} {options : ParseOptions}
    (ends : EndsExpression .assignment rest)
    (faces : now.Faces soft rounds (ofWord word :: rest)) :
    (level options soft rounds (levels + 1)).expression.Decides ((ofWord word).isOperand = true)
      soft rounds now rest fun id forest => forest.Displays id (wordText (ofWord word)) := by
  have plain : UnaryOp.ofTag? (tagAt (ofWord word :: rest) 0) = none := by
    rcases ofWord_cases word with same | same | ⟨tag, spelled, same⟩
    · rw [same]
      rfl
    · rw [same]
      rfl
    · obtain ⟨isKeyword, _⟩ := of_ofWord_fixed same
      rw [same]
      show UnaryOp.ofTag? tag = none
      revert isKeyword
      cases tag <;> decide
  show (descend options soft rounds (levels + 1) (.expression .assignment)).Decides _ _ _ _ _ _
  rw [descend_succ]
  exact decides_expressionFrom rfl plain ends faces (decides_word ends.toEndsName faces)

section

variable (opens : OpensValue kinds value)
  (reads : ∀ later : Parser, later.Faces soft rounds value →
    grammar.expression.Decides accepts soft rounds later after fun id forest =>
      forest.Displays id text)
include opens reads

/-- An argument by its key is decided by its value. -/
theorem decides_keywordArgument (faces : now.Faces soft rounds (.identifier key :: kinds)) :
    grammar.argument.Decides accepts soft rounds now after fun id forest =>
      forest.Displays id (keyedText "keyword_argument" key text) := by
  obtain ⟨name, isName, spells⟩ := faces.identifier
  unfold Grammar.argument
  refine decides_current.mpr ?_
  rw [isName]
  refine (succeeds_isKeyword faces).bindDecides fun isKeyword asked asks faces answer => ?_
  have yes : isKeyword = true := answer.trans opens.opens
  rw [yes, if_pos rfl]
  refine (succeeds_advance faces).bindDecides fun _ named names faces _ => ?_
  refine (succeeds_splitColon opens faces).bindDecides fun _ split splits faces _ => ?_
  refine (succeeds_advance faces).bindDecides fun _ colon colons faces _ => ?_
  have goes := ((asks.trans names).trans splits).trans colons
  refine (succeeds_keyNode goes faces spells).bindDecides fun first keyed keys faces shows => ?_
  refine .bind (reads keyed faces) fun _ second last goes faces shown => ?_
  exact succeeds_shown faces nofun (fun _ _ _ => rfl)
    (.cons (Agreement.fieldShows_node (shows.mono goes.forest) "key")
      (.cons (Agreement.fieldShows_node shown "value") .nil))

/-- An entry of a hash literal is decided by its value. -/
theorem decides_hashEntry (faces : now.Faces soft rounds (.identifier key :: kinds)) :
    grammar.hashEntry.Decides accepts soft rounds now after fun id forest =>
      forest.Displays id (keyedText "hash_entry" key text) := by
  obtain ⟨name, isName, spells⟩ := faces.identifier
  unfold Grammar.hashEntry
  refine decides_current.mpr ?_
  dsimp only
  rw [isName]
  refine (succeeds_advance faces).bindDecides fun _ named names faces _ => ?_
  refine (succeeds_keyNode names faces spells).bindDecides fun first keyed keys faces shows => ?_
  refine (succeeds_splitColon opens faces).bindDecides fun _ split splits faces _ => ?_
  refine (succeeds_expect faces _).bindDecides fun _ colon colons faces _ => ?_
  refine .bind (reads colon faces) fun _ second last goes faces shown => ?_
  have further := (splits.trans colons).trans goes
  exact succeeds_shown faces nofun (fun _ _ _ => rfl)
    (.cons (Agreement.fieldShows_node (shows.mono further.forest) "key")
      (.cons (Agreement.fieldShows_node shown "value") .nil))

end

/-- The token that closes a list is stepped over if nothing stands before it. -/
theorem decides_expectCloser {closer : TokenKind String} {marks : List (TokenKind String)}
    (other : ∀ mark ∈ marks.head?, mark.tag ≠ closer.tag)
    (faces : now.Faces soft rounds (marks ++ closer :: rest)) (code : ErrorCode)
    (construct : Construct) :
    (expectCloser code closer.tag construct).Decides (marks = []) soft rounds now rest
      fun _ _ => True := by
  cases marks with
  | nil => exact (succeeds_expectCloser faces code construct).decides rfl
  | cons mark marks =>
    unfold expectCloser
    refine (succeeds_eat_none faces (other mark rfl)).bindDecides
      fun eaten later goes faces isEaten => ?_
    rw [isEaten]
    exact Parse.outcome_unexpected.mpr (.throw (List.cons_ne_nil _ _))

section

variable {marks : List (TokenKind String)}

/-- A list of one item is decided by the item and by what follows it. -/
theorem decides_soleList {α : Type} {next : NodeRange → Parse α} {last : α → Forest → Prop}
    {item : Parse NodeId} (closer : TokenKind String) (sameRounds : grammar.rounds = rounds)
    (first : tagAt kinds 0 ≠ closer.tag) (notComma : closer.tag ≠ .comma)
    (other : ∀ mark ∈ marks.head?, mark.tag ≠ closer.tag ∧ mark.tag ≠ .comma)
    (faces : now.Faces soft rounds kinds)
    (reads : item.Decides accepts soft rounds now (marks ++ closer :: rest) fun id forest =>
      forest.Displays id text)
    (code : ErrorCode) (construct : Construct)
    (more : ∀ (range : NodeRange) (later : Parser), later.Faces soft rounds rest →
      later.forest.DisplaysSole range text →
      (next range).Succeeds soft rounds later after last) :
    Decides (accepts ∧ marks = []) soft rounds
      (do
        let items ← grammar.itemsUntil closer.tag item
        expectCloser code closer.tag construct
        next (← addList items))
      now after last := by
  have ends : tagAt (marks ++ closer :: rest) 0 ≠ .comma := by
    cases marks with
    | nil => exact notComma
    | cons mark marks => exact (other mark rfl).2
  refine .seq (decides_soleItem sameRounds first ends faces reads)
    fun ids read _ faces ⟨id, isSole, displays⟩ => ?_
  refine .bind (decides_expectCloser (fun mark isFirst => (other mark isFirst).1) faces _ _)
    fun _ _ closed closes faces _ => ?_
  rw [isSole]
  exact .bind (succeeds_soleList faces (displays.mono closes.forest))
    fun range later _ faces shows => more range later faces shows

end

section

variable {callee : String} {marks : List (TokenKind String)} (sameRounds : grammar.rounds = rounds)
  (opens : OpensValue kinds value)
include sameRounds opens

/-- A call with one argument by its key is decided by the value and by what follows it. -/
theorem decides_keyedCall
    (reads : ∀ later : Parser, later.Faces soft rounds value →
      grammar.expression.Decides accepts soft rounds later (marks ++ .fixed .rightParen :: rest)
        fun id forest => forest.Displays id text)
    (other : ∀ mark ∈ marks.head?, mark.tag ≠ .rightParen ∧ mark.tag ≠ .comma)
    (notBlock : tagAt rest 0 ≠ .kwDo)
    (faces : now.Faces soft rounds
      (.identifier callee :: .fixed .leftParen :: .identifier key :: kinds)) :
    grammar.primary.Decides (accepts ∧ marks = []) soft rounds now rest fun id forest =>
      forest.Displays id (SyntaxTree.shown "call" [callee]
        [Agreement.listText "arguments" [keyedText "keyword_argument" key text]]) := by
  obtain ⟨name, isName, spells⟩ := faces.identifier
  unfold Grammar.primary
  refine decides_current.mpr ?_
  rw [isName]
  refine (succeeds_advance faces).bindDecides fun token named names faces _ => ?_
  refine decides_check.mpr ?_
  have calls : named.cursor.check .leftParen = true := faces.check_self
  rw [if_pos calls]
  have arguments : grammar.arguments.Decides (accepts ∧ marks = []) soft rounds named rest
      fun range forest => forest.DisplaysSole range (keyedText "keyword_argument" key text) := by
    unfold Grammar.arguments
    refine (succeeds_expect faces _).bindDecides fun _ opened _ faces _ => ?_
    have listed (range : NodeRange) (later : Parser) (faces : later.Faces soft rounds rest)
        (shows : later.forest.DisplaysSole range (keyedText "keyword_argument" key text)) :
        Succeeds soft rounds (pure range) later rest fun range forest =>
          forest.DisplaysSole range (keyedText "keyword_argument" key text) := .pure faces shows
    have list := decides_soleList (.fixed .rightParen) sameRounds Tag.noConfusion Tag.noConfusion
      other faces (decides_keywordArgument opens reads faces) .malformedArguments .arguments listed
    simp only [bind_pure] at list
    exact list
  unfold Grammar.call
  refine .bind arguments fun _ range read reads faces shows => ?_
  refine .bind (succeeds_noBlock faces notBlock) fun block last goes faces isNone => ?_
  rw [isNone]
  refine succeeds_shown faces (fun _ => NodeKind.noConfusion) (fun after grows root => ?_)
    (.cons ((shows "arguments").mono goes.forest) .nil)
  have further := ((names.trans reads).trans goes).forest.trans grows
  exact congrArg (fun text => [text]) (spells.mono further.names).2

/-- A hash literal with one entry by its key is decided by the value and by what follows it. -/
theorem decides_keyedHash
    (reads : ∀ later : Parser, later.Faces soft rounds value →
      grammar.expression.Decides accepts soft rounds later (marks ++ .fixed .rightBrace :: rest)
        fun id forest => forest.Displays id text)
    (other : ∀ mark ∈ marks.head?, mark.tag ≠ .rightBrace ∧ mark.tag ≠ .comma)
    (faces : now.Faces soft rounds (.fixed .leftBrace :: .identifier key :: kinds)) :
    grammar.primary.Decides (accepts ∧ marks = []) soft rounds now rest fun id forest =>
      forest.Displays id (SyntaxTree.shown "hash" []
        [Agreement.listText "entries" [keyedText "hash_entry" key text]]) := by
  have opening : now.cursor.current.kind = .fixed .leftBrace := eq_fixed faces.tag rfl
  unfold Grammar.primary
  refine decides_current.mpr ?_
  rw [opening]
  refine (succeeds_advance faces).bindDecides fun token opened _ faces _ => ?_
  exact decides_soleList (.fixed .rightBrace) sameRounds Tag.noConfusion
    Tag.noConfusion other faces (decides_hashEntry opens reads faces) _ _
    fun range later faces shows => succeeds_shown faces nofun (fun _ _ _ => rfl)
      (.cons (shows "entries") .nil)

end

end Parser

/-- Where a key stands with its value. -/
inductive KeyedPlace where
  /-- As the only argument of a call. -/
  | argument
  /-- As the only entry of a hash literal. -/
  | entry

namespace KeyedPlace

/-- A source text, from a key with its value. -/
def around : KeyedPlace → String → String
  | argument, item => "f(" ++ item ++ ")"
  | entry, item => "\x7b" ++ item ++ "\x7d"

/-- The tokens before the key. -/
def opening : KeyedPlace → List (TokenKind String)
  | argument => [.identifier "f", .fixed .leftParen]
  | entry => [.fixed .leftBrace]

/-- The character after the value. -/
def closerChar : KeyedPlace → Char
  | argument => ')'
  | entry => '}'

/-- The token after the value. -/
def closer : KeyedPlace → TokenKind String
  | argument => .fixed .rightParen
  | entry => .fixed .rightBrace

/-- The text of the statement. -/
def shown : KeyedPlace → String → String → String
  | argument, key, value => SyntaxTree.shown "call" ["f"]
      [Agreement.listText "arguments" [keyedText "keyword_argument" key value]]
  | entry, key, value => SyntaxTree.shown "hash" []
      [Agreement.listText "entries" [keyedText "hash_entry" key value]]

end KeyedPlace

/-- The token of the mark of a name, if the mark stands alone. -/
def loneMark (mark : Char) : TokenKind String :=
  if mark = '?' then .fixed .question else .fixed .bang

/-- A mark that stands alone is no directive. -/
theorem isDirective_loneMark (mark : Char) : (loneMark mark).isDirective = false := by
  rw [loneMark]
  split <;> rfl

namespace Parser

variable {options : ParseOptions} {soft : SoftNames} {rounds levels : Nat} {now : Parser}
  {tokens : List (Token String)} {kinds : List (TokenKind String)} {key word : String}
  {marker : List Char}

/-- A mark that stands alone goes on with nothing. -/
theorem endsExpression_loneMark (place : KeyedPlace) (marker : List Char) (least : BindingPower) :
    EndsExpression least (marker.map loneMark ++ [place.closer]) := by
  cases marker with
  | nil => cases place <;> exact endsExpression_of_separates rfl least
  | cons mark marker =>
    rw [List.map_cons, List.cons_append, loneMark]
    split <;> exact endsExpression_of_mark rfl Tag.noConfusion Tag.noConfusion Tag.noConfusion
      Tag.noConfusion least

/-- A statement with one key is decided by the value and by whether a mark stands alone. -/
theorem decides_keyedStatement (place : KeyedPlace)
    (opens : OpensValue kinds (ofWord word :: (marker.map loneMark ++ [place.closer])))
    (ready : now.Ready soft rounds tokens)
    (same : Token.kinds tokens = place.opening ++ .identifier key :: kinds) :
    (level options soft rounds (levels + 2)).statement.Decides
      ((ofWord word).isOperand = true ∧ marker = []) soft rounds now [] fun id forest =>
        forest.Displays id (place.shown key (wordText (ofWord word))) := by
  have marks : ∀ mark ∈ (marker.map loneMark).head?,
      mark.tag ≠ place.closer.tag ∧ mark.tag ≠ .comma := by
    intro mark isFirst
    obtain ⟨char, _, rfl⟩ := List.mem_map.mp (List.mem_of_mem_head? isFirst)
    rw [loneMark]
    split <;> cases place <;> exact ⟨Tag.noConfusion, Tag.noConfusion⟩
  have value (later : Parser)
      (faces : later.Faces soft rounds (ofWord word :: (marker.map loneMark ++ [place.closer]))) :
      (level options soft rounds (levels + 1)).expression.Decides ((ofWord word).isOperand = true)
        soft rounds later (marker.map loneMark ++ [place.closer]) fun id forest =>
          forest.Displays id (wordText (ofWord word)) :=
    decides_value (endsExpression_loneMark place marker .assignment) faces
  have starts : TagSet.expressionStart.contains
      (tagAt (place.opening ++ .identifier key :: kinds) 0) = true := by
    cases place with
    | argument => exact (by decide : TagSet.expressionStart.contains .identifier = true)
    | entry => exact (by decide : TagSet.expressionStart.contains .leftBrace = true)
  have noImport : ¬ Lookahead.IsImport now.cursor.source tokens := by
    rintro ⟨_, _, whole, _⟩
    rw [same] at whole
    cases place with
    | argument =>
      exact Tag.noConfusion (congrArg TokenKind.tag (List.cons.inj (List.cons.inj whole).2).1)
    | entry => exact Tag.noConfusion (congrArg TokenKind.tag (List.cons.inj whole).1)
  have isNil : marker.map loneMark = [] ↔ marker = [] := List.map_eq_nil_iff
  refine decides_statement rfl starts ready same noImport fun later faces => ?_
  show (descend options soft rounds (levels + 2) (.expression .assignment)).Decides _ _ _ _ _ _
  rw [descend_succ]
  have ends : EndsExpression .assignment [] := endsExpression_of_separates rfl _
  have sameRounds : (level options soft rounds (levels + 1)).rounds = rounds := rfl
  cases place with
  | argument =>
    have reads := decides_keyedCall sameRounds opens value marks Tag.noConfusion faces
    exact decides_expressionFrom sameRounds rfl ends faces (reads.iff (and_congr_right' isNil))
  | entry =>
    have reads := decides_keyedHash sameRounds opens value marks faces
    exact decides_expressionFrom sameRounds rfl ends faces (reads.iff (and_congr_right' isNil))

end Parser

namespace Text

variable {text : List Char}

/-- A name ends with a question or exclamation mark. -/
def IsMarked (text : List Char) : Prop := text.getLast? = some '?' ∨ text.getLast? = some '!'

/-- A name is its word characters and its mark. -/
theorem exists_bare (shape : IsIdentifier text ∨ IsConstant text) :
    ∃ bare marker, text = bare ++ marker ∧ IsBare bare ∧
      (marker = [] ∨ marker = ['?'] ∨ marker = ['!']) ∧ (marker = [] ↔ ¬IsMarked text) := by
  have unmarked {bare : List Char} (words : ∀ char ∈ bare, Content.isWordChar char = true) :
      ¬IsMarked bare := by
    rintro (last | last) <;> have isWord := words _ (List.mem_of_getLast? last) <;> contradiction
  rcases shape with ⟨first, body, marker, rfl, starts, words, mark⟩ | ⟨first, body, rfl, starts, words⟩
  · have all : ∀ char ∈ first :: body, Content.isWordChar char = true := by
      rintro char (_ | ⟨_, inside⟩)
      · exact (Content.starts_lower starts).2
      · exact words char inside
    refine ⟨first :: body, marker, rfl, ⟨first, body, rfl, ?_, words⟩, mark, ?_⟩
    · rcases starts with lower | rfl
      · show (first.isUpper || first.isLower || first == '_') = true
        rw [lower, Bool.or_true, Bool.true_or]
      · rfl
    · rcases mark with rfl | rfl | rfl
      · simpa using unmarked all
      · exact ⟨nofun, fun isNot => isNot (.inl (@List.getLast?_concat _ (first :: body) _)) |>.elim⟩
      · exact ⟨nofun, fun isNot => isNot (.inr (@List.getLast?_concat _ (first :: body) _)) |>.elim⟩
  · have all : ∀ char ∈ first :: body, Content.isWordChar char = true := by
      rintro char (_ | ⟨_, inside⟩)
      · simp [Content.isWordChar_eq, starts]
      · exact words char inside
    refine ⟨first :: body, [], by rw [List.append_nil], ⟨first, body, rfl, ?_, words⟩, .inl rfl, ?_⟩
    · show (first.isUpper || first.isLower || first == '_') = true
      rw [starts, Bool.true_or, Bool.true_or]
    · simpa using unmarked all

end Text

namespace KeyedPlace

/-- The characters before the key. -/
def openingChars : KeyedPlace → List Char
  | argument => ['f', '(']
  | entry => ['{']

/-- The characters of a source text with a key. -/
theorem toList_around (place : KeyedPlace) (item : String) :
    (place.around item).toList = place.openingChars ++ (item.toList ++ [place.closerChar]) := by
  cases place <;> simp [around, openingChars, closerChar, String.toList_append]

end KeyedPlace

namespace Piece.Reads

variable {operand : Bool} {marker after : List Char} {stop : Char} {contents : List Content}
  {key : String}

/-- What stands after the word characters of a value. -/
theorem valueEnd (place : KeyedPlace) (mark : marker = [] ∨ marker = ['?'] ∨ marker = ['!']) :
    Reads operand (marker ++ [place.closerChar])
      ((marker.map loneMark ++ [place.closer]).map .token) := by
  have ends (operand : Bool) : Reads operand [place.closerChar] [.token place.closer] := by
    cases place with
    | argument => exact .mark (by decide) (by decide +kernel) rfl .nil
    | entry => exact .mark (by decide) (by decide +kernel) rfl .nil
  rcases mark with rfl | rfl | rfl
  · exact ends operand
  · exact .mark (by decide) (by decide +kernel) rfl (ends _)
  · -- An exclamation mark is read alone unless an equals sign follows.
    refine @cons operand true '!' [] [place.closerChar] _ _ (fun before _ => ?_) nofun rfl (ends _)
    show Content.mark '!' [place.closerChar] = _
    cases place <;> decide +kernel

/-- A key and what stands before it. -/
theorem keyed (place : KeyedPlace) (shape : Text.IsIdentifier key.toList)
    (free : ofWord key = .identifier key) (stops : Content.endsWord stop = true)
    (more : Reads true (stop :: after) contents) :
    Reads false (place.openingChars ++ (key.toList ++ stop :: after))
      ((place.opening ++ [TokenKind.identifier key]).map .token ++ contents) := by
  have isKey : ofWord (String.ofList key.toList) = .identifier key := by
    rw [String.ofList_toList, free]
  have named := @token false stop key.toList after _ _ (.inl shape) isKey stops more
  cases place with
  | argument =>
    have name : Text.IsIdentifier ['f'] := ⟨'f', [], [], rfl, .inl rfl, nofun, .inl rfl⟩
    exact @token false '(' ['f'] _ _ (.identifier "f") (.inl name) (by decide +kernel) rfl
      (@mark true false '(' _ _ (.fixed .leftParen) (by decide) (by decide +kernel) rfl named)
  | entry =>
    exact @mark false false '{' _ _ (.fixed .leftBrace) (by decide) (by decide +kernel) rfl named

end Piece.Reads

section

variable {options : ParseOptions} {key word : String} {kinds : List (TokenKind String)}
  {after : List Char} {stop : Char} {contents : List Content}

/-- How a source text with a key is read follows from what stands after the key. -/
theorem decides_keyed (place : KeyedPlace) (item : String) (marker : List Char)
    (deep : 2 < options.maxDepth) (shape : Text.IsIdentifier key.toList)
    (free : ofWord key = .identifier key) (stops : Content.endsWord stop = true)
    (whole : item.toList ++ [place.closerChar] = key.toList ++ stop :: after)
    (reads : Piece.Reads true (stop :: after) contents)
    (spaced : contents.filter (· ≠ .blank) = kinds.map .token)
    (plain : ∀ kind ∈ kinds, kind.isDirective = false)
    (opens : OpensValue kinds (ofWord word :: (marker.map loneMark ++ [place.closer]))) :
    ((parseWith options (place.around item)).errors = [] ↔
        (ofWord word).isOperand = true ∧ marker = []) ∧
      ((ofWord word).isOperand = true ∧ marker = [] →
        (parseWith options (place.around item)).tree.toSexp =
          "(program " ++ place.shown key (wordText (ofWord word)) ++ ")") := by
  obtain ⟨levels, enough⟩ : ∃ levels, options.maxDepth = levels + 2 + 1 :=
    ⟨options.maxDepth - 3, by omega⟩
  have code : Text.IsCode (place.around item).toList
      (place.opening ++ .identifier key :: kinds) := by
    rw [place.toList_around, whole]
    refine (Piece.Reads.keyed place shape free stops reads).isCode ?_ ?_
    · simp only [ne_eq, decide_not] at spaced
      cases place <;> simp [KeyedPlace.opening, spaced]
    · cases place <;> simpa [KeyedPlace.opening, TokenKind.isDirective] using plain
  have filled : place.opening ++ .identifier key :: kinds ≠ [] :=
    List.append_ne_nil_of_right_ne_nil _ (List.cons_ne_nil _ _)
  obtain ⟨errors, shows⟩ := decides_parseWith code filled enough fun soft start begins =>
    Parser.decides_keyedStatement place opens begins.ready code.kinds_sourceTokens
  refine ⟨errors, fun is => ?_⟩
  obtain ⟨forest, id, length, displays, tree⟩ := shows is
  rw [tree, Forest.toSexp_sole displays]

end

/-- How a key and a value are read with space around the colon and without. -/
structure ReadsKeyed (options : ParseOptions) (place : KeyedPlace) (key value : String) :
    Prop where
  /-- With space after the colon there is no error. -/
  after : (parseWith options (place.around (key ++ ": " ++ value))).errors = []
  /-- Without space there is no error. -/
  without : (parseWith options (place.around (key ++ ":" ++ value))).errors = []
  /-- With space before the colon there is no error exactly if the value has no mark. -/
  before : (parseWith options (place.around (key ++ " :" ++ value))).errors = [] ↔
    ¬Text.IsMarked value.toList
  /-- Without space the program is the same. -/
  same : (parseWith options (place.around (key ++ ":" ++ value))).tree.toSexp =
    (parseWith options (place.around (key ++ ": " ++ value))).tree.toSexp
  /-- With space before the colon the program is the same if the value has no mark. -/
  sameBefore : ¬Text.IsMarked value.toList →
    (parseWith options (place.around (key ++ " :" ++ value))).tree.toSexp =
      (parseWith options (place.around (key ++ ": " ++ value))).tree.toSexp

/-- Space around the colon after a key makes no difference, unless a value with a mark stands
directly after a colon that stands apart from the key. -/
theorem readsKeyed_parseWith (options : ParseOptions) (deep : 2 < options.maxDepth)
    (place : KeyedPlace) (key value : String) (shape : Text.IsIdentifier key.toList)
    (free : ofWord key = .identifier key)
    (name : Text.IsIdentifier value.toList ∨ Text.IsConstant value.toList)
    (operand : (ofWord value).isOperand = true) : ReadsKeyed options place key value := by
  have isValue : ofWord (String.ofList value.toList) = ofWord value :=
    congrArg ofWord String.ofList_toList
  have closes : Content.endsWord place.closerChar = true := by cases place <;> rfl
  have isCloser : place.closer.isDirective = false := by cases place <;> rfl
  have ordinary := isDirective_ofWord value
  obtain ⟨bare, marker, split, isBare, mark, unmarked⟩ := Text.exists_bare name
  -- After a colon the value is one token, its mark included.
  have reads : Piece.Reads false (value.toList ++ [place.closerChar])
      [.token (ofWord value), .token place.closer] :=
    .token name isValue closes (.valueEnd place (.inl rfl))
  have plain : ∀ kind ∈ [.fixed .colon, ofWord value, place.closer],
      kind.isDirective = false := by
    intro kind member
    simp only [List.mem_cons, List.not_mem_nil, or_false] at member
    rcases member with rfl | rfl | rfl
    · rfl
    · exact ordinary
    · exact isCloser
  obtain ⟨after, shown⟩ := decides_keyed place (key ++ ": " ++ value) [] deep shape free rfl
    (by simp [String.toList_append]) (.colon (.space (Text.solid_name name _) reads)) rfl plain
    (.colon _)
  obtain ⟨without, shownWithout⟩ := decides_keyed place (key ++ ":" ++ value) [] deep shape free rfl
    (by simp [String.toList_append]) (.colon reads) rfl plain (.colon _)
  -- With the colon it is a symbol, which ends before the mark.
  obtain ⟨stop, rest, ends, notWord⟩ : ∃ stop rest,
      marker ++ [place.closerChar] = stop :: rest ∧ Content.isWordChar stop = false := by
    rcases mark with rfl | rfl | rfl
    · exact ⟨_, _, rfl, (Content.takesMarker_stop closes []).1⟩
    · exact ⟨_, _, rfl, rfl⟩
    · exact ⟨_, _, rfl, rfl⟩
  have marks : Piece.Reads true (stop :: rest)
      ((marker.map loneMark ++ [place.closer]).map .token) := ends ▸ .valueEnd place mark
  have symbol : Piece.Reads false (':' :: (bare ++ stop :: rest))
      ((.symbol (String.ofList bare) :: (marker.map loneMark ++ [place.closer])).map .token) :=
    .symbol isBare notWord marks
  have plainMarks : ∀ kind ∈ .symbol (String.ofList bare) ::
      (marker.map loneMark ++ [place.closer]), kind.isDirective = false := by
    intro kind member
    rcases List.mem_cons.mp member with rfl | member
    · rfl
    rcases List.mem_append.mp member with mark | last
    · obtain ⟨char, _, rfl⟩ := List.mem_map.mp mark
      exact isDirective_loneMark char
    · exact List.mem_singleton.mp last ▸ isCloser
  obtain ⟨before, shownBefore⟩ := decides_keyed place (key ++ " :" ++ value) marker deep shape free
    rfl (by simp [String.toList_append, split, ends])
    (.space (by simp [Text.isSeparator]) symbol) (by simp [List.filter_eq_self])
    plainMarks (.symbol _ _)
  have word (none : marker = []) : String.ofList bare = value := by
    rw [none, List.append_nil] at split
    rw [← split, String.ofList_toList]
  refine ⟨after.mpr ⟨operand, rfl⟩, without.mpr ⟨operand, rfl⟩, ?_, ?_, ?_⟩
  · rw [before, ← unmarked]
    exact ⟨And.right, fun none => ⟨(word none).symm ▸ operand, none⟩⟩
  · exact (shownWithout ⟨operand, rfl⟩).trans (shown ⟨operand, rfl⟩).symm
  · intro isNot
    have none := unmarked.mpr isNot
    have same := word none
    rw [same] at shownBefore
    exact (shownBefore ⟨operand, none⟩).trans (shown ⟨operand, rfl⟩).symm

/-- With the colon directly before it, the name `v?` is no value. -/
theorem readsKeyed_parseWith_marked : 2 < ParseOptions.usual.maxDepth ∧
    Text.IsIdentifier "k".toList ∧ ofWord "k" = .identifier "k" ∧
    Text.IsIdentifier "v?".toList ∧ (ofWord "v?").isOperand = true ∧ Text.IsMarked "v?".toList ∧
    ReadsKeyed .usual .argument "k" "v?" := by
  have key : Text.IsIdentifier "k".toList := ⟨'k', [], [], rfl, .inl rfl, nofun, .inl rfl⟩
  have name : Text.IsIdentifier "v?".toList :=
    ⟨'v', [], ['?'], rfl, .inl rfl, nofun, .inr (.inl rfl)⟩
  have free : ofWord "k" = .identifier "k" := by decide +kernel
  have operand : (ofWord "v?").isOperand = true := by decide +kernel
  exact ⟨by decide, key, free, name, operand, .inl rfl,
    readsKeyed_parseWith .usual (by decide) .argument "k" "v?" key free (.inl name) operand⟩

end Vibescript
