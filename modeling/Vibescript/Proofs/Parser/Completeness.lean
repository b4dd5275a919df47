import Vibescript.Proofs.Parser.Alike
import Vibescript.Proofs.Parser.Faces
import Vibescript.Proofs.Parser.Levels
import Vibescript.Proofs.Tree.Expression

/-!
# Every expression is read

A parser that faces the tokens of a stratified expression reads that expression and nothing else,
as long as what follows does not go on with it. The loops over members and operators follow the
left spine of an expression: what is proved of a loop is proved of the rounds that are left once
the receiver, or the left operand, was read.
-/
namespace Vibescript

open Build Parse

/-- Whether a token separates expressions or closes what stands around them. -/
def Tag.separates : Tag → Bool
  | comma | rightBracket | rightBrace | rightParen | endOfInput => true
  | _ => false

namespace TokenKind

/-- The first token does not go on with a name. -/
structure EndsName (kinds : List (TokenKind String)) : Prop where
  /-- No block follows. -/
  notBlock : tagAt kinds 0 ≠ .kwDo
  /-- No argument list follows. -/
  notArguments : tagAt kinds 0 ≠ .leftParen

/-- The first token does not go on with an operand. -/
structure EndsOperand (kinds : List (TokenKind String)) : Prop extends EndsName kinds where
  /-- No member follows. -/
  notMember : tagAt kinds 0 ≠ .dot
  /-- No index follows. -/
  notIndex : tagAt kinds 0 ≠ .leftBracket

/-- The first token does not go on with an expression whose operators bind at least so tightly. -/
structure EndsExpression (least : BindingPower) (kinds : List (TokenKind String)) : Prop
    extends EndsOperand kinds where
  /-- No operator follows that binds so tightly. -/
  loose : ∀ op, InfixOp.ofTag? (tagAt kinds 0) = some op → op.power.rank < least.rank

variable {kinds : List (TokenKind String)} {least other : BindingPower}

/-- A separator goes on with nothing. -/
theorem endsExpression_of_separates (separates : (tagAt kinds 0).separates = true)
    (least : BindingPower) : EndsExpression least kinds := by
  have differs (tag : Tag) (plain : tag.separates = false) : tagAt kinds 0 ≠ tag := by
    rintro rfl
    rw [separates] at plain
    contradiction
  refine ⟨⟨⟨differs _ rfl, differs _ rfl⟩, differs _ rfl, differs _ rfl⟩, fun op isOp => ?_⟩
  revert separates isOp
  cases tagAt kinds 0 <;> intro separates isOp <;> contradiction

/-- An infix operator does not go on with an operand. -/
theorem endsOperand_of_operator {op : InfixOp} (isOp : InfixOp.ofTag? (tagAt kinds 0) = some op) :
    EndsOperand kinds := by
  have differs (tag : Tag) (plain : InfixOp.ofTag? tag = none) : tagAt kinds 0 ≠ tag := by
    rintro rfl
    rw [isOp] at plain
    contradiction
  exact ⟨⟨differs _ rfl, differs _ rfl⟩, differs _ rfl, differs _ rfl⟩

/-- What goes on with no loose operator goes on with no tighter one. -/
theorem EndsExpression.mono (ends : EndsExpression least kinds) (le : least.rank ≤ other.rank) :
    EndsExpression other kinds :=
  ⟨ends.toEndsOperand, fun op isOp => Nat.lt_of_lt_of_le (ends.loose op isOp) le⟩

end TokenKind

namespace ListKind

/-- The token that closes a list. -/
def closer : ListKind → Tag
  | array => .rightBracket
  | hash => .rightBrace
  | arguments => .rightParen

/-- The token that closes a list has a spelling. -/
theorem spelled_closer (list : ListKind) : list.closer.spelling?.isSome = true := by
  cases list <;> rfl

/-- The token that closes a list separates. -/
theorem separates_closer (list : ListKind) : list.closer.separates = true := by
  cases list <;> rfl

/-- No expression starts with the token that closes a list. -/
theorem startsNone_closer (list : ListKind) :
    TagSet.expressionStart.contains list.closer = false := by
  cases list <;> decide

/-- The reading of an item of a list. -/
def item (grammar : Grammar) : ListKind → Parse NodeId
  | array => grammar.expression
  | hash => grammar.hashEntry
  | arguments => grammar.argument

end ListKind

namespace Forest

/-- An expression stands at a node of a forest. -/
def Shows (forest : Forest) (expression : Expression) (id : NodeId) : Prop :=
  expression.StandsAt forest.arena forest.names id

/-- Items stand at nodes of a forest. -/
def ShowsAll (forest : Forest) (list : ListKind) (items : Items) (ids : List NodeId) : Prop :=
  items.StandAt forest.arena forest.names list ids

/-- An item of a list stands at a node of a forest. -/
def ShowsItem (forest : Forest) (list : ListKind) (key : Option Key) (value : Expression)
    (id : NodeId) : Prop :=
  match key with
  | none => forest.Shows value id
  | some key => ∃ first second, forest.arena.Has id (list.keyed first second) ∧
    key.StandsAt forest.arena forest.names first ∧ forest.Shows value second

/-- Items stand at the children of a range. -/
def ShowsList (forest : Forest) (list : ListKind) (items : Items) (range : NodeRange) : Prop :=
  forest.arena.Contains range ∧ forest.ShowsAll list items (forest.arena.list range)

variable {before after : Forest} {expression : Expression} {list : ListKind} {key : Option Key}
  {range : NodeRange} {value : Expression} {items : Items} {id : NodeId} {ids : List NodeId}

/-- An expression stays while the forest grows. -/
theorem Shows.mono (shows : before.Shows expression id) (grows : before.Grows after) :
    after.Shows expression id :=
  Expression.StandsAt.mono grows.arena grows.names shows

/-- An item stays while the forest grows. -/
theorem ShowsItem.mono (shows : before.ShowsItem list key value id) (grows : before.Grows after) :
    after.ShowsItem list key value id := by
  cases key with
  | none => exact Shows.mono shows grows
  | some key =>
    obtain ⟨first, second, has, stands, shown⟩ := shows
    exact ⟨first, second, has.mono grows.arena, stands.mono grows.arena grows.names,
      Shows.mono shown grows⟩

/-- Items stay while the forest grows. -/
theorem ShowsAll.mono (shows : before.ShowsAll list items ids) (grows : before.Grows after) :
    after.ShowsAll list items ids :=
  Items.StandAt.mono grows.arena grows.names shows

/-- Items stay at the children of a range while the forest grows. -/
theorem ShowsList.mono (shows : before.ShowsList list items range) (grows : before.Grows after) :
    after.ShowsList list items range := by
  refine ⟨grows.arena.contains shows.1, ?_⟩
  rw [grows.arena.list shows.1]
  exact shows.2.mono grows

/-- An item more stands before the others. -/
theorem ShowsItem.cons (shows : before.ShowsItem list key value id)
    (others : before.ShowsAll list items ids) :
    before.ShowsAll list (.cons key value items) (id :: ids) := by
  cases key with
  | none => exact ⟨id, ids, rfl, shows, others⟩
  | some key =>
    obtain ⟨first, second, has, stands, shown⟩ := shows
    exact ⟨id, ids, first, second, rfl, has, stands, shown, others⟩

end Forest

namespace Grammar

/-- One round over what follows an operand. -/
def chainStep (grammar : Grammar) (left : NodeId) : Parse (ForInStep NodeId) := do
  let start ← nodeSpan left
  match ← currentTag with
  | .dot => return .yield (← grammar.member left start)
  | .leftBracket => return .yield (← grammar.subscript left start)
  | _ => return .done left

/-- What follows an operand is read in rounds. -/
theorem chain_eq (grammar : Grammar) (operand : NodeId) :
    grammar.chain operand = repeatWithin grammar.chainStep grammar.rounds operand := rfl

/-- One round over the items of a list. -/
def itemStep (closer : Tag) (item : Parse NodeId) (items : Array NodeId) :
    Parse (ForInStep (Array NodeId)) := do
  if ← Build.check closer then return .done items
  let items := items.push (← item)
  return if ← Build.eat .comma then .yield items else .done items

/-- The items of a list are read in rounds. -/
theorem itemsUntil_eq (grammar : Grammar) (closer : Tag) (item : Parse NodeId) :
    grammar.itemsUntil closer item = repeatWithin (itemStep closer item) grammar.rounds #[] := rfl

/-- The readings one level deeper read every expression that is written with at most so many
lexemes. -/
structure Completes (grammar : Grammar) (soft : SoftNames) (rounds bound : Nat) : Prop where
  /-- The bound on rounds is that of the text. -/
  sameRounds : grammar.rounds = rounds
  /-- An expression is read. -/
  expression : ∀ {expression : Expression} {least : BindingPower} {start : Parser}
    {rest : List (TokenKind String)}, expression.IsStratified →
    least.rank ≤ expression.power.rank → expression.lexemes.length ≤ bound →
    TokenKind.EndsExpression least rest → start.Faces soft rounds (expression.kinds ++ rest) →
    (grammar.deeper (.expression least)).Succeeds soft rounds start rest fun id forest =>
      forest.Shows expression id
  /-- An operand is read. -/
  operand : ∀ {expression : Expression} {start : Parser} {rest : List (TokenKind String)},
    expression.IsStratified → BindingPower.unary.rank ≤ expression.power.rank →
    expression.lexemes.length ≤ bound → TokenKind.EndsOperand rest →
    start.Faces soft rounds (expression.kinds ++ rest) →
    (grammar.deeper .operand).Succeeds soft rounds start rest fun id forest =>
      forest.Shows expression id

end Grammar

namespace Parser

open TokenKind Grammar

section

variable {soft : SoftNames} {rounds count : Nat} {now : Parser} {kind : TokenKind String}
  {kinds middle : List (TokenKind String)} {node : NodeKind} {span : Span}
  {holds : NodeId → Forest → Prop} {α : Type} {step : α → Parse (ForInStep α)} {state : α}
  {known last : α → Forest → Prop}

/-- A node is added. -/
theorem succeeds_node (faces : now.Faces soft rounds kinds)
    (stands : ∀ id forest, now.forest.Grows forest → forest.arena.Has id node → holds id forest) :
    Succeeds soft rounds (liftM (Build.addNode node span)) now kinds holds :=
  Parse.Outcome.imp (succeeds_addNode faces node span) fun id after ⟨goes, faces, has⟩ =>
    ⟨goes, faces, stands id after.forest goes.forest has⟩

/-- A construct becomes a node. -/
theorem succeeds_closed (faces : now.Faces soft rounds kinds)
    (stands : ∀ id forest, now.forest.Grows forest → forest.arena.Has id node → holds id forest) :
    Succeeds soft rounds (liftM (Build.close node span)) now kinds holds :=
  succeeds_node faces stands

/-- Asking for the tag of the current token. -/
theorem succeeds_currentTag {β : Type} {next : Tag → Parse β} {holds : β → Forest → Prop}
    (faces : now.Faces soft rounds kinds)
    (succeeds : (next (tagAt kinds 0)).Succeeds soft rounds now middle holds) :
    Succeeds soft rounds (liftM Build.currentTag >>= next) now middle holds := by
  refine Parse.outcome_currentTag.mpr ?_
  rw [faces.tag]
  exact succeeds

/-- Asking for the span of a node. -/
theorem succeeds_nodeSpan {β : Type} {id : NodeId} {next : Span → Parse β}
    {holds : β → Forest → Prop} :
    Succeeds soft rounds (liftM (Build.nodeSpan id) >>= next) now kinds holds ↔
      (next (now.arena.span id)).Succeeds soft rounds now kinds holds := Iff.rfl

/-- A round that ends a loop. -/
theorem succeeds_done
    (round : (step state).Succeeds soft rounds now kinds fun result forest =>
      ∃ answer, result = .done answer ∧ last answer forest) :
    (repeatWithin step (count + 1) state).Succeeds soft rounds now kinds last := by
  rw [repeatWithin]
  refine .bind round fun result later _ faces done => ?_
  obtain ⟨answer, isDone, shown⟩ := done
  rw [isDone]
  exact .pure faces shown

/-- A round and those after it. -/
theorem succeeds_yield
    (round : (step state).Succeeds soft rounds now middle fun result forest =>
      ∃ next, result = .yield next ∧ known next forest)
    (more : ∀ next later, now.Goes later → later.Faces soft rounds middle →
      known next later.forest →
      (repeatWithin step count next).Succeeds soft rounds later kinds last) :
    (repeatWithin step (count + 1) state).Succeeds soft rounds now kinds last := by
  rw [repeatWithin]
  refine .bind round fun result later goes faces yielded => ?_
  obtain ⟨next, isYield, shown⟩ := yielded
  rw [isYield]
  exact more next later goes faces shown

/-- The name that a parser faces is the current token. -/
theorem Faces.identifier {text : String} (faces : now.Faces soft rounds (.identifier text :: kinds)) :
    ∃ name, now.cursor.current.kind = .identifier name ∧ now.forest.names.Spells name text := by
  obtain ⟨_, same, isKnown, _⟩ := faces.step
  obtain ⟨name, isName⟩ := eq_identifier faces.tag
  rw [isName] at same isKnown
  exact ⟨name, isName, isKnown name rfl, identifier.inj same⟩

/-- A question is answered. -/
theorem succeeds_ask {question : Lookahead Bool} {property : Bool → Prop}
    (faces : now.Faces soft rounds kinds)
    (tells : ∀ tokens, now.Ready soft rounds tokens → Token.kinds tokens = kinds →
      question.Tells now.cursor.source tokens soft.spelling property) :
    Succeeds soft rounds (liftM (Build.ask question)) now kinds fun answer _ =>
      property answer := by
  obtain ⟨tokens, ready, same⟩ := faces
  obtain ⟨looks, holds⟩ := tells tokens ready same now.cursor rfl ready.pending ready.soft
  have passes := Passes.of_moves looks.moves
  exact .lift (outcome_onCursor.mpr ⟨⟨passes.forest, rfl, rfl⟩,
    ⟨tokens, passes.ready ready, same⟩, holds⟩)

/-- The answer to whether a key of an argument starts is about the second token. -/
theorem succeeds_isKeyword (faces : now.Faces soft rounds kinds) :
    Succeeds soft rounds (liftM (Build.ask Lookahead.isKeyword)) now kinds fun answer _ =>
      answer = (tagAt kinds 1).opensValue :=
  succeeds_ask faces fun _ _ same => same ▸ Lookahead.tells_isKeyword

/-- A token that is no symbol is not split. -/
theorem succeeds_splitSymbol (faces : now.Faces soft rounds kinds)
    (other : tagAt kinds 0 ≠ .symbol) :
    Succeeds soft rounds (liftM Build.splitSymbol) now kinds fun _ _ => True := by
  have same := now.cursor.splitSymbol_of_ne (faces.tag ▸ other)
  refine .lift (outcome_onCursor.mpr ?_)
  rw [same]
  exact ⟨.refl now, faces, trivial⟩

/-- The token that closes a list is stepped over. -/
theorem succeeds_expectCloser (faces : now.Faces soft rounds (kind :: kinds)) (code : ErrorCode)
    (construct : Construct) :
    (expectCloser code kind.tag construct).Succeeds soft rounds now kinds fun _ _ => True := by
  unfold expectCloser
  refine .bind (succeeds_eat faces) fun eaten later _ faces isEaten => ?_
  rw [isEaten]
  exact .pure faces trivial

/-- No block is read. -/
theorem succeeds_noBlock {grammar : Grammar} (faces : now.Faces soft rounds kinds)
    (notBlock : tagAt kinds 0 ≠ .kwDo) :
    grammar.block?.Succeeds soft rounds now kinds fun block _ => block = none := by
  unfold Grammar.block?
  refine succeeds_check.mpr ?_
  rw [faces.check, if_neg (by rwa [beq_iff_eq])]
  exact .pure faces rfl

end

variable {soft : SoftNames} {rounds bound count : Nat} {grammar : Grammar} {now : Parser}
  {rest : List (TokenKind String)} {list : ListKind} {value : Expression} {items : Items}

/-- A full expression is read. -/
theorem succeeds_full (completes : grammar.Completes soft rounds bound)
    (stratified : value.IsStratified) (short : value.lexemes.length ≤ bound)
    (separates : (tagAt rest 0).separates = true)
    (faces : now.Faces soft rounds (value.kinds ++ rest)) :
    grammar.expression.Succeeds soft rounds now rest fun id forest => forest.Shows value id :=
  completes.expression stratified (Nat.zero_le _) short
    (endsExpression_of_separates separates _) faces

/-- A name becomes a key. -/
theorem succeeds_key {start : Parser} {identifier : Identifier} {name : Name}
    (goes : start.Goes now) (faces : now.Faces soft rounds rest)
    (spells : start.forest.names.Spells name identifier.name) (span : Span) :
    Succeeds soft rounds (liftM (Build.addNode (.identifier name) span)) now rest fun id forest =>
      (Key.name identifier).StandsAt forest.arena forest.names id :=
  succeeds_node faces fun _ _ grows has =>
    ⟨name, has, (spells.mono goes.forest.names).mono grows.names⟩

/-- An entry of a hash literal is read. -/
theorem succeeds_hashEntry (completes : grammar.Completes soft rounds bound) {key : Key}
    (stratified : value.IsStratified) (short : value.lexemes.length ≤ bound)
    (separates : (tagAt rest 0).separates = true)
    (faces : now.Faces soft rounds (key.kinds ++ (value.kinds ++ rest))) :
    grammar.hashEntry.Succeeds soft rounds now rest fun id forest =>
      forest.ShowsItem .hash (some key) value id := by
  have entry (first : NodeId) (later : Parser) (goes : now.Goes later)
      (faces : later.Faces soft rounds (.fixed .colon :: (value.kinds ++ rest)))
      (stands : key.StandsAt later.forest.arena later.forest.names first) :
      Succeeds soft rounds
        (do
          let _ ← Build.splitSymbol
          let _ ← expect .colon .hash
          let value ← grammar.expression
          Build.close (.hashEntry first value) now.cursor.current.span)
        later rest fun id forest => forest.ShowsItem .hash (some key) value id := by
    refine .bind (succeeds_splitSymbol faces Tag.noConfusion) fun _ split splits faces _ => ?_
    refine .bind (succeeds_expect faces _) fun _ colon colons faces _ => ?_
    refine .bind (succeeds_full completes stratified short separates faces)
      fun second last reads faces shows => ?_
    refine succeeds_closed faces fun id forest grows has => ?_
    have further := ((splits.trans colons).trans reads).forest.trans grows
    exact ⟨first, second, has, stands.mono further.arena further.names, shows.mono grows⟩
  unfold Grammar.hashEntry
  refine succeeds_current.mpr ?_
  cases key with
  | name identifier =>
    obtain ⟨name, isName, spells⟩ := Faces.identifier faces
    dsimp only
    rw [isName]
    refine .bind (succeeds_advance faces) fun _ named steps faces _ => ?_
    have node := succeeds_key steps faces spells now.cursor.current.span
    exact .bind node fun first later goes faces stands =>
      entry first later (steps.trans goes) faces stands
  | text literal =>
    rw [Key.kinds_text, List.cons_append, List.append_assoc] at faces
    dsimp only
    rw [eq_stringOpen faces.tag]
    refine .bind (succeeds_stringLiteral completes.sameRounds faces literal.all)
      fun first later goes faces ⟨word, span, has, spells⟩ => ?_
    exact entry first later goes faces ⟨word, ⟨span, has⟩, spells⟩

/-- An argument by its place is read. -/
theorem succeeds_positional (completes : grammar.Completes soft rounds bound)
    (stratified : value.IsStratified) (short : value.lexemes.length ≤ bound)
    (separates : (tagAt rest 0).separates = true)
    (faces : now.Faces soft rounds (value.kinds ++ rest)) :
    grammar.argument.Succeeds soft rounds now rest fun id forest => forest.Shows value id := by
  unfold Grammar.argument
  refine succeeds_current.mpr ?_
  split
  · next name isName =>
    have starts : tagAt (value.kinds ++ rest) 0 = .identifier := by
      rw [← faces.tag, Token.tag, isName]
      rfl
    have plain : (tagAt (value.kinds ++ rest) 1).opensValue = false := by
      refine value.second_kinds starts ?_
      revert separates
      cases tagAt rest 0 <;> intro separates <;> first | rfl | contradiction
    refine .bind (succeeds_isKeyword faces) fun isKeyword later _ faces answer => ?_
    rw [answer, plain]
    exact succeeds_full completes stratified short separates faces
  · exact succeeds_full completes stratified short separates faces

/-- An argument by its key is read. -/
theorem succeeds_keyword (completes : grammar.Completes soft rounds bound)
    {identifier : Identifier} (stratified : value.IsStratified)
    (short : value.lexemes.length ≤ bound) (separates : (tagAt rest 0).separates = true)
    (faces : now.Faces soft rounds ((Key.name identifier).kinds ++ (value.kinds ++ rest))) :
    grammar.argument.Succeeds soft rounds now rest fun id forest =>
      forest.ShowsItem .arguments (some (.name identifier)) value id := by
  rw [Key.kinds_name, List.cons_append, List.singleton_append] at faces
  obtain ⟨name, isName, spells⟩ := faces.identifier
  unfold Grammar.argument
  refine succeeds_current.mpr ?_
  rw [isName]
  refine .bind (succeeds_isKeyword faces) fun isKeyword asked asks faces answer => ?_
  have yes : isKeyword = true := answer
  rw [yes]
  refine .bind (succeeds_advance faces) fun _ named names faces _ => ?_
  refine .bind (succeeds_splitSymbol faces Tag.noConfusion) fun _ split splits faces _ => ?_
  refine .bind (succeeds_advance faces) fun _ colon colons faces _ => ?_
  have goes := ((asks.trans names).trans splits).trans colons
  refine .bind (succeeds_key goes faces spells now.cursor.current.span)
    fun first keyed keys faces stands => ?_
  refine .bind (succeeds_full completes stratified short separates faces)
    fun second last reads faces shows => ?_
  refine succeeds_closed faces fun id forest grows has => ?_
  have further := reads.forest.trans grows
  exact ⟨first, second, has, stands.mono further.arena further.names, shows.mono grows⟩

/-- An item of a list is read. -/
theorem succeeds_item (completes : grammar.Completes soft rounds bound) {key : Option Key}
    (allowed : list.allows key = true) (stratified : value.IsStratified)
    (short : value.lexemes.length ≤ bound) (separates : (tagAt rest 0).separates = true)
    (faces : now.Faces soft rounds (key.elim [] Key.kinds ++ (value.kinds ++ rest))) :
    (list.item grammar).Succeeds soft rounds now rest fun id forest =>
      forest.ShowsItem list key value id := by
  match list, key, allowed with
  | .array, none, _ => exact succeeds_full completes stratified short separates faces
  | .hash, some key, _ => exact succeeds_hashEntry completes stratified short separates faces
  | .arguments, none, _ => exact succeeds_positional completes stratified short separates faces
  | .arguments, some (.name _), _ =>
    exact succeeds_keyword completes stratified short separates faces

/-- Where an item starts, its list is not closed. -/
theorem not_check_closer {key : Option Key} (stratified : value.IsStratified)
    (faces : now.Faces soft rounds ((Items.cons key value items).kinds ++ rest)) :
    ¬now.cursor.check list.closer = true := by
  obtain ⟨kind, more, same, starts⟩ : ∃ kind more,
      (Items.cons key value items).kinds = kind :: more ∧
        TagSet.expressionStart.contains kind.tag = true := Items.head_kinds stratified items
  rw [same] at faces
  rw [faces.check, beq_iff_eq]
  intro isCloser
  have isKind : kind.tag = list.closer := isCloser
  rw [isKind, list.startsNone_closer] at starts
  contradiction

/-- The last round of a list reads an item before the token that closes the list. -/
theorem succeeds_lastRound (completes : grammar.Completes soft rounds bound) {key : Option Key}
    (before : Array NodeId) (allowed : list.allows key = true) (stratified : value.IsStratified)
    (short : value.lexemes.length ≤ bound) (starts : ¬now.cursor.check list.closer = true)
    (faces : now.Faces soft rounds (key.elim [] Key.kinds ++
      (value.kinds ++ .fixed list.closer list.spelled_closer :: rest))) :
    (itemStep list.closer (list.item grammar) before).Succeeds soft rounds now
      (.fixed list.closer list.spelled_closer :: rest) fun result forest =>
        ∃ all, result = .done all ∧ ∃ id, all = before.push id ∧
          forest.ShowsItem list key value id := by
  have separates : (tagAt (.fixed list.closer list.spelled_closer :: rest) 0).separates = true :=
    list.separates_closer
  refine succeeds_check.mpr ?_
  rw [if_neg starts]
  refine .bind (succeeds_item completes allowed stratified short separates faces)
    fun id later _ faces shows => ?_
  have other : list.closer ≠ .comma := by cases list <;> exact Tag.noConfusion
  refine .bind (succeeds_eat_none faces other) fun eaten last eats faces isEaten => ?_
  rw [isEaten]
  exact .pure faces ⟨before.push id, rfl, id, rfl, shows.mono eats.forest⟩

/-- A round of a list reads an item and the comma after it. -/
theorem succeeds_commaRound (completes : grammar.Completes soft rounds bound) {key : Option Key}
    (before : Array NodeId) (allowed : list.allows key = true) (stratified : value.IsStratified)
    (short : value.lexemes.length ≤ bound) (starts : ¬now.cursor.check list.closer = true)
    (faces : now.Faces soft rounds
      (key.elim [] Key.kinds ++ (value.kinds ++ .fixed .comma :: rest))) :
    (itemStep list.closer (list.item grammar) before).Succeeds soft rounds now rest
      fun result forest => ∃ all, result = .yield all ∧ ∃ id, all = before.push id ∧
        forest.ShowsItem list key value id := by
  refine succeeds_check.mpr ?_
  rw [if_neg starts]
  refine .bind (succeeds_item completes allowed stratified short rfl faces)
    fun id later _ faces shows => ?_
  refine .bind (succeeds_eat faces) fun eaten last eats faces isEaten => ?_
  rw [isEaten]
  exact .pure faces ⟨before.push id, rfl, id, rfl, shows.mono eats.forest⟩

/-- Items up to the token that closes their list are read. -/
theorem succeeds_items (completes : grammar.Completes soft rounds bound) {items : Items}
    {count : Nat} {before : Array NodeId} {now : Parser}
    (stratified : items.AreStratified list) (short : items.lexemes.length ≤ bound)
    (enough : items.kinds.length < count)
    (faces : now.Faces soft rounds
      (items.kinds ++ .fixed list.closer list.spelled_closer :: rest)) :
    (repeatWithin (itemStep list.closer (list.item grammar)) count before).Succeeds soft rounds now
      (.fixed list.closer list.spelled_closer :: rest) fun all forest =>
        ∃ ids, all.toList = before.toList ++ ids ∧ forest.ShowsAll list items ids := by
  obtain ⟨count, rfl⟩ : ∃ less, count = less + 1 := ⟨count - 1, by omega⟩
  match items with
  | .nil =>
    refine succeeds_done (succeeds_check.mpr ?_)
    have closes : now.cursor.check list.closer = true := faces.check_self
    rw [if_pos closes]
    exact .pure faces ⟨before, rfl, [], (List.append_nil _).symm, rfl⟩
  | .cons key value others =>
    obtain ⟨allowed, isValue, areOthers⟩ := stratified
    have starts : ¬now.cursor.check list.closer = true := not_check_closer isValue faces
    rw [Items.kinds_cons] at faces enough
    simp only [List.append_assoc] at faces
    simp only [List.length_append] at enough
    simp only [Items.lexemes, List.length_append] at short
    cases empty : others.isEmpty with
    | true =>
      obtain rfl := Items.eq_nil empty
      change now.Faces soft rounds (key.elim [] Key.kinds ++
        (value.kinds ++ .fixed list.closer list.spelled_closer :: rest)) at faces
      have round := succeeds_lastRound completes before allowed isValue (by omega) starts faces
      refine (succeeds_done round).imp fun all forest last => ?_
      obtain ⟨id, isLast, shows⟩ := last
      refine ⟨[id], ?_, shows.cons rfl⟩
      rw [isLast, Array.toList_push]
    | false =>
      rw [empty] at faces enough
      change now.Faces soft rounds (key.elim [] Key.kinds ++ (value.kinds ++ .fixed .comma ::
        (others.kinds ++ .fixed list.closer list.spelled_closer :: rest))) at faces
      change _ + 1 + _ < _ at enough
      have round := succeeds_commaRound completes before allowed isValue (by omega) starts faces
      refine succeeds_yield round fun next later _ faces yielded => ?_
      obtain ⟨id, isNext, shows⟩ := yielded
      refine Parse.Outcome.imp (succeeds_items completes areOthers (by omega) (by omega) faces)
        fun all after result => ?_
      obtain ⟨goes, faces, ids, same, all⟩ := result
      refine ⟨goes, faces, id :: ids, ?_, ?_⟩
      · rw [same, isNext, Array.toList_push, List.append_assoc]
        rfl
      · exact (shows.mono goes.forest).cons all

/-- The items of a list are read, and the token that closes it, and they become a list of
children. -/
theorem succeeds_list (completes : grammar.Completes soft rounds bound) {α : Type}
    {next : NodeRange → Parse α} {last : List (TokenKind String)} {holds : α → Forest → Prop}
    (stratified : items.AreStratified list) (short : items.lexemes.length ≤ bound)
    (faces : now.Faces soft rounds
      (items.kinds ++ .fixed list.closer list.spelled_closer :: rest))
    (code : ErrorCode) (construct : Construct)
    (more : ∀ range later, now.Goes later → later.Faces soft rounds rest →
      later.forest.ShowsList list items range →
      (next range).Succeeds soft rounds later last holds) :
    Succeeds soft rounds
      (grammar.itemsUntil list.closer (list.item grammar) >>= fun ids =>
        expectCloser code list.closer construct >>= fun _ => liftM (Build.addList ids) >>= next)
      now last holds := by
  have enough : items.kinds.length < grammar.rounds := by
    have bound := faces.length_lt
    rw [List.length_append] at bound
    rw [completes.sameRounds]
    omega
  rw [itemsUntil_eq]
  refine .bind (succeeds_items completes stratified short enough faces)
    fun all read reads faces ⟨ids, same, shows⟩ => ?_
  refine .bind (succeeds_expectCloser faces code construct) fun _ closed closes faces _ => ?_
  refine .bind (succeeds_addList faces all) fun range later adds faces ⟨inside, listed⟩ => ?_
  refine more range later ((reads.trans closes).trans adds) faces ⟨inside, ?_⟩
  rw [listed, same]
  exact shows.mono (closes.forest.trans adds.forest)

/-- An array literal is read. -/
theorem succeeds_array (completes : grammar.Completes soft rounds bound)
    (stratified : items.AreStratified .array) (short : items.lexemes.length ≤ bound)
    (faces : now.Faces soft rounds ((Expression.array items).kinds ++ rest)) :
    grammar.primary.Succeeds soft rounds now rest fun id forest =>
      forest.Shows (.array items) id := by
  rw [Expression.kinds_array, List.cons_append, List.append_assoc] at faces
  have opens : now.cursor.current.kind = .fixed .leftBracket := eq_fixed faces.tag rfl
  refine succeeds_current.mpr ?_
  rw [opens]
  refine .bind (succeeds_advance faces) fun opening opened _ faces _ => ?_
  refine succeeds_list completes stratified short faces _ _ fun range later _ faces shows => ?_
  exact succeeds_closed faces fun id forest grows has => ⟨range, has, shows.mono grows⟩

/-- A hash literal is read. -/
theorem succeeds_hash (completes : grammar.Completes soft rounds bound)
    (stratified : items.AreStratified .hash) (short : items.lexemes.length ≤ bound)
    (faces : now.Faces soft rounds ((Expression.hash items).kinds ++ rest)) :
    grammar.primary.Succeeds soft rounds now rest fun id forest =>
      forest.Shows (.hash items) id := by
  rw [Expression.kinds_hash, List.cons_append, List.append_assoc] at faces
  have opens : now.cursor.current.kind = .fixed .leftBrace := eq_fixed faces.tag rfl
  refine succeeds_current.mpr ?_
  rw [opens]
  refine .bind (succeeds_advance faces) fun opening opened _ faces _ => ?_
  refine succeeds_list completes stratified short faces _ _ fun range later _ faces shows => ?_
  exact succeeds_closed faces fun id forest grows has => ⟨range, has, shows.mono grows⟩

/-- An expression in parentheses is read. -/
theorem succeeds_parenthesized (completes : grammar.Completes soft rounds bound)
    (stratified : value.IsStratified) (short : value.lexemes.length ≤ bound)
    (faces : now.Faces soft rounds ((Expression.parenthesized value).kinds ++ rest)) :
    grammar.primary.Succeeds soft rounds now rest fun id forest =>
      forest.Shows (.parenthesized value) id := by
  rw [Expression.kinds_parenthesized, List.cons_append, List.append_assoc] at faces
  have opens : now.cursor.current.kind = .fixed .leftParen := eq_fixed faces.tag rfl
  refine succeeds_current.mpr ?_
  rw [opens]
  refine .bind (succeeds_advance faces) fun opening opened _ faces _ => ?_
  refine .bind (succeeds_full completes stratified short rfl faces)
    fun inner read _ faces shows => ?_
  refine .bind (succeeds_expect faces _) fun _ closed closes faces _ => ?_
  exact succeeds_closed faces fun id forest grows has =>
    ⟨inner, has, shows.mono (closes.forest.trans grows)⟩

/-- Arguments in parentheses are read. -/
theorem succeeds_arguments (completes : grammar.Completes soft rounds bound)
    (stratified : items.AreStratified .arguments) (short : items.lexemes.length ≤ bound)
    (faces : now.Faces soft rounds
      (.fixed .leftParen :: (items.kinds ++ .fixed .rightParen :: rest))) :
    grammar.arguments.Succeeds soft rounds now rest fun range forest =>
      forest.ShowsList .arguments items range := by
  unfold Grammar.arguments
  refine .bind (succeeds_expect faces _) fun _ opened _ faces _ => ?_
  have listed (range : NodeRange) (later : Parser) (_ : opened.Goes later)
      (faces : later.Faces soft rounds rest) (shows : later.forest.ShowsList .arguments items range) :
      Succeeds soft rounds (pure range) later rest fun range forest =>
        forest.ShowsList .arguments items range := .pure faces shows
  have read := succeeds_list completes stratified short faces .malformedArguments .arguments listed
  simp only [bind_pure] at read
  exact read

/-- A call is read. -/
theorem succeeds_call (completes : grammar.Completes soft rounds bound)
    (stratified : items.AreStratified .arguments) (short : items.lexemes.length ≤ bound)
    (notBlock : tagAt rest 0 ≠ .kwDo) (receiver : Option NodeId) (method : Name) (start : Span)
    (faces : now.Faces soft rounds
      (.fixed .leftParen :: (items.kinds ++ .fixed .rightParen :: rest))) :
    (grammar.call receiver method start).Succeeds soft rounds now rest fun id forest =>
      ∃ range, forest.arena.Has id (.call receiver method range none) ∧
        forest.ShowsList .arguments items range := by
  unfold Grammar.call
  refine .bind (succeeds_arguments completes stratified short faces)
    fun range read _ faces shows => ?_
  refine .bind (succeeds_noBlock faces notBlock) fun block last goes faces isNone => ?_
  rw [isNone]
  exact succeeds_closed faces fun id forest grows has =>
    ⟨range, has, shows.mono (goes.forest.trans grows)⟩

/-- A member without arguments is read. -/
theorem succeeds_member {text : String} (ends : EndsName rest) (receiver : NodeId) (start : Span)
    (faces : now.Faces soft rounds (.fixed .dot :: .identifier text :: rest)) :
    (grammar.member receiver start).Succeeds soft rounds now rest fun id forest =>
      ∃ name, forest.arena.Has id (.memberAccess receiver name none) ∧
        forest.names.Spells name text := by
  unfold Grammar.member
  refine .bind (succeeds_advance faces) fun _ dotted _ faces _ => ?_
  refine .bind (succeeds_expectIdentifier faces _)
    fun (name, _) named _ faces ⟨isKnown, reads, _⟩ => ?_
  refine succeeds_check.mpr ?_
  rw [faces.check, if_neg (by rw [beq_iff_eq]; exact ends.notArguments)]
  refine .bind (succeeds_noBlock faces ends.notBlock) fun block last goes faces isNone => ?_
  rw [isNone]
  have spells : named.forest.names.Spells name text := ⟨isKnown, reads⟩
  exact succeeds_closed faces fun id forest grows has =>
    ⟨name, has, spells.mono (goes.forest.trans grows).names⟩

/-- A call of a method of a receiver is read. -/
theorem succeeds_memberCall (completes : grammar.Completes soft rounds bound) {text : String}
    (stratified : items.AreStratified .arguments) (short : items.lexemes.length ≤ bound)
    (notBlock : tagAt rest 0 ≠ .kwDo) (receiver : NodeId) (start : Span)
    (faces : now.Faces soft rounds (.fixed .dot :: .identifier text :: .fixed .leftParen ::
      (items.kinds ++ .fixed .rightParen :: rest))) :
    (grammar.member receiver start).Succeeds soft rounds now rest fun id forest =>
      ∃ name range, forest.arena.Has id (.call (some receiver) name range none) ∧
        forest.names.Spells name text ∧ forest.ShowsList .arguments items range := by
  unfold Grammar.member
  refine .bind (succeeds_advance faces) fun _ dotted _ faces _ => ?_
  refine .bind (succeeds_expectIdentifier faces _)
    fun (name, _) named _ faces ⟨isKnown, reads, _⟩ => ?_
  refine succeeds_check.mpr ?_
  have opens : named.cursor.check .leftParen = true := faces.check_self
  rw [if_pos opens]
  refine Parse.Outcome.imp (succeeds_call completes stratified short notBlock _ _ _ faces)
    fun id after ⟨goes, faces, range, has, shows⟩ => ⟨goes, faces, name, range, has, ?_, shows⟩
  exact NameTable.Spells.mono goes.forest.names ⟨isKnown, reads⟩

/-- An index is read. -/
theorem succeeds_subscript (completes : grammar.Completes soft rounds bound)
    (stratified : value.IsStratified) (short : value.lexemes.length ≤ bound) (receiver : NodeId)
    (start : Span)
    (faces : now.Faces soft rounds
      (.fixed .leftBracket :: (value.kinds ++ .fixed .rightBracket :: rest))) :
    (grammar.subscript receiver start).Succeeds soft rounds now rest fun id forest =>
      ∃ index, forest.arena.Has id (.subscript receiver index) ∧ forest.Shows value index := by
  unfold Grammar.subscript
  refine .bind (succeeds_advance faces) fun _ opened _ faces _ => ?_
  refine .bind (succeeds_full completes stratified short rfl faces)
    fun index read _ faces shows => ?_
  refine .bind (succeeds_expect faces _) fun _ closed closes faces _ => ?_
  exact succeeds_closed faces fun id forest grows has =>
    ⟨index, has, shows.mono (closes.forest.trans grows)⟩

/-- A token that is an expression by itself is read. -/
theorem succeeds_atom {word : Atom} (ends : EndsName rest)
    (faces : now.Faces soft rounds (word.kind :: rest)) :
    grammar.primary.Succeeds soft rounds now rest fun id forest =>
      forest.Shows (.atom word) id := by
  obtain ⟨_, same, isKnown, _⟩ := faces.step
  have isOperand : now.cursor.current.kind.isOperand = true := by
    have mapped := word.isOperand
    rw [← same] at mapped
    revert mapped
    cases now.cursor.current.kind <;> exact id
  have stands (node : NodeKind) (isAtom : node.atom? = some now.cursor.current.kind)
      (later : Parser) (goes : now.Goes later) (faces : later.Faces soft rounds rest)
      (span : Span) :
      Succeeds soft rounds (liftM (Build.addNode node span)) later rest fun id forest =>
        forest.Shows (.atom word) id := by
    refine succeeds_node faces fun id forest grows has => ?_
    have names := (goes.forest.trans grows).names
    exact ⟨node, _, has, isAtom, isKnown.mono names, (isKnown.map_text names).trans same⟩
  have leaf (node : NodeKind) (isAtom : node.atom? = some now.cursor.current.kind) :
      Succeeds soft rounds (liftM (Build.leaf node)) now rest fun id forest =>
        forest.Shows (.atom word) id := by
    -- A leaf is one step; as a reading it is two.
    change Succeeds soft rounds (liftM Build.advance >>= fun token =>
      liftM (Build.addNode node token.span)) now rest _
    exact .bind (succeeds_advance faces) fun token later goes faces _ =>
      stands node isAtom later goes faces _
  refine succeeds_current.mpr ?_
  generalize now.cursor.current.kind = kind at isOperand stands leaf
  cases kind with
  | identifier name =>
    refine .bind (succeeds_advance faces) fun token later goes faces _ => ?_
    refine succeeds_check.mpr ?_
    rw [faces.check, if_neg (by rw [beq_iff_eq]; exact ends.notArguments)]
    exact stands _ rfl later goes faces _
  | fixed tag spelled => cases tag <;> first | contradiction | exact leaf _ rfl
  | _ => first | contradiction | exact leaf _ rfl

/-- A string literal is read as a primary expression. -/
theorem succeeds_string (sameRounds : grammar.rounds = rounds) {literal : Literal}
    (faces : now.Faces soft rounds ((Expression.string literal).kinds ++ rest)) :
    grammar.primary.Succeeds soft rounds now rest fun id forest =>
      forest.Shows (.string literal) id := by
  rw [Expression.kinds_string, List.cons_append, List.append_assoc] at faces
  refine succeeds_current.mpr ?_
  rw [eq_stringOpen faces.tag]
  exact (succeeds_stringLiteral sameRounds faces literal.all).imp
    fun id forest ⟨word, span, has, spells⟩ => ⟨word, ⟨span, has⟩, spells⟩

/-- A call without a receiver is read as a primary expression. -/
theorem succeeds_namedCall (completes : grammar.Completes soft rounds bound)
    {method : Identifier} (stratified : items.AreStratified .arguments)
    (short : items.lexemes.length ≤ bound) (notBlock : tagAt rest 0 ≠ .kwDo)
    (faces : now.Faces soft rounds ((Expression.call method items).kinds ++ rest)) :
    grammar.primary.Succeeds soft rounds now rest fun id forest =>
      forest.Shows (.call method items) id := by
  rw [Expression.kinds_call, List.cons_append, List.cons_append, List.append_assoc] at faces
  obtain ⟨name, isName, spells⟩ := faces.identifier
  refine succeeds_current.mpr ?_
  rw [isName]
  refine .bind (succeeds_advance faces) fun token named goes faces _ => ?_
  refine succeeds_check.mpr ?_
  have opens : named.cursor.check .leftParen = true := faces.check_self
  rw [if_pos opens]
  refine Parse.Outcome.imp (succeeds_call completes stratified short notBlock _ _ _ faces)
    fun id after ⟨more, faces, range, has, shows⟩ => ⟨more, faces, name, range, has, ?_, shows⟩
  exact spells.mono (goes.trans more).forest.names

/-- A round of a chain reads a member of what was read before. -/
theorem succeeds_memberRound {receiver : Expression} {name : Identifier} {id : NodeId}
    (ends : EndsName rest) (shows : now.forest.Shows receiver id)
    (faces : now.Faces soft rounds (.fixed .dot :: .identifier name.name :: rest)) :
    (grammar.chainStep id).Succeeds soft rounds now rest fun result forest =>
      ∃ next, result = .yield next ∧ forest.Shows (.member receiver name) next := by
  refine succeeds_nodeSpan.mpr (succeeds_currentTag faces ?_)
  refine .bind (succeeds_member ends id _ faces) fun next linked links faces shown => ?_
  obtain ⟨word, has, spells⟩ := shown
  exact .pure faces ⟨next, rfl, id, word, has, shows.mono links.forest, spells⟩

/-- A round of a chain reads a call of a method of what was read before. -/
theorem succeeds_callRound (completes : grammar.Completes soft rounds bound)
    {receiver : Expression} {method : Identifier} {id : NodeId}
    (stratified : items.AreStratified .arguments) (short : items.lexemes.length ≤ bound)
    (ends : EndsName rest) (shows : now.forest.Shows receiver id)
    (faces : now.Faces soft rounds (.fixed .dot :: .identifier method.name :: .fixed .leftParen ::
      (items.kinds ++ .fixed .rightParen :: rest))) :
    (grammar.chainStep id).Succeeds soft rounds now rest fun result forest =>
      ∃ next, result = .yield next ∧ forest.Shows (.memberCall receiver method items) next := by
  refine succeeds_nodeSpan.mpr (succeeds_currentTag faces ?_)
  refine .bind (succeeds_memberCall completes stratified short ends.notBlock id _ faces)
    fun next linked links faces shown => ?_
  obtain ⟨word, range, has, spells, list⟩ := shown
  exact .pure faces ⟨next, rfl, id, word, range, has, shows.mono links.forest, spells, list⟩

/-- A round of a chain reads an index of what was read before. -/
theorem succeeds_indexRound (completes : grammar.Completes soft rounds bound)
    {receiver : Expression} {id : NodeId} (stratified : value.IsStratified)
    (short : value.lexemes.length ≤ bound) (shows : now.forest.Shows receiver id)
    (faces : now.Faces soft rounds
      (.fixed .leftBracket :: (value.kinds ++ .fixed .rightBracket :: rest))) :
    (grammar.chainStep id).Succeeds soft rounds now rest fun result forest =>
      ∃ next, result = .yield next ∧ forest.Shows (.subscript receiver value) next := by
  refine succeeds_nodeSpan.mpr (succeeds_currentTag faces ?_)
  refine .bind (succeeds_subscript completes stratified short id _ faces)
    fun next linked links faces shown => ?_
  obtain ⟨place, has, inner⟩ := shown
  exact .pure faces ⟨next, rfl, id, place, has, shows.mono links.forest, inner⟩

/-- A primary expression is read, and after it the members, calls and indices of the receivers on
the left; then come the rounds that are left. -/
theorem succeeds_postfixed (completes : grammar.Completes soft rounds bound)
    {expression : Expression} {count : Nat} {now : Parser} {rest last : List (TokenKind String)}
    {holds : NodeId → Forest → Prop} (stratified : expression.IsStratified)
    (postfixed : expression.power = .postfixed)
    (short : expression.lexemes.length ≤ bound + 1) (ends : EndsName rest)
    (faces : now.Faces soft rounds (expression.kinds ++ rest))
    (more : ∀ id later, now.Goes later → later.Faces soft rounds rest →
      later.forest.Shows expression id →
      (repeatWithin grammar.chainStep count id).Succeeds soft rounds later last holds) :
    Succeeds soft rounds
      (grammar.primary >>= repeatWithin grammar.chainStep (count + expression.links)) now last
      holds := by
  match expression with
  | .atom word => exact .bind (succeeds_atom ends faces) more
  | .string literal => exact .bind (succeeds_string completes.sameRounds faces) more
  | .array elements =>
    simp only [Expression.lexemes, List.length_cons, List.length_append] at short
    exact .bind (succeeds_array completes stratified (by omega) faces) more
  | .hash entries =>
    simp only [Expression.lexemes, List.length_cons, List.length_append] at short
    exact .bind (succeeds_hash completes stratified (by omega) faces) more
  | .parenthesized inner =>
    simp only [Expression.lexemes, List.length_cons, List.length_append] at short
    have isInner : inner.IsStratified := stratified
    exact .bind (succeeds_parenthesized completes isInner (by omega) faces) more
  | .call method arguments =>
    simp only [Expression.lexemes, List.length_cons, List.length_append] at short
    exact .bind (succeeds_namedCall completes stratified (by omega) ends.notBlock faces) more
  | .member receiver name =>
    obtain ⟨isPostfixed, isReceiver⟩ := stratified
    simp only [Expression.lexemes, List.length_append] at short
    rw [Expression.kinds_member, List.append_assoc] at faces
    rw [Expression.links, Nat.add_comm _ 1, ← Nat.add_assoc]
    refine succeeds_postfixed completes isReceiver isPostfixed (by omega)
      ⟨Tag.noConfusion, Tag.noConfusion⟩ faces fun id later goes faces shows => ?_
    have round : (grammar.chainStep id).Succeeds soft rounds later rest _ :=
      succeeds_memberRound ends shows faces
    refine succeeds_yield round fun next linked links faces shown => ?_
    exact more next linked (goes.trans links) faces shown
  | .memberCall receiver method arguments =>
    obtain ⟨isPostfixed, isReceiver, areArguments⟩ := stratified
    simp only [Expression.lexemes, List.length_append, List.length_cons] at short
    rw [Expression.kinds_memberCall, List.append_assoc, List.cons_append, List.cons_append,
      List.cons_append, List.append_assoc] at faces
    rw [Expression.links, Nat.add_comm _ 1, ← Nat.add_assoc]
    refine succeeds_postfixed completes isReceiver isPostfixed (by omega)
      ⟨Tag.noConfusion, Tag.noConfusion⟩ faces fun id later goes faces shows => ?_
    have round := succeeds_callRound completes areArguments (by omega) ends shows faces
    refine succeeds_yield round fun next linked links faces shown => ?_
    exact more next linked (goes.trans links) faces shown
  | .subscript receiver index =>
    obtain ⟨isPostfixed, isReceiver, isIndex⟩ := stratified
    simp only [Expression.lexemes, List.length_append, List.length_cons] at short
    rw [Expression.kinds_subscript, List.append_assoc, List.cons_append, List.append_assoc] at faces
    rw [Expression.links, Nat.add_comm _ 1, ← Nat.add_assoc]
    refine succeeds_postfixed completes isReceiver isPostfixed (by omega)
      ⟨Tag.noConfusion, Tag.noConfusion⟩ faces fun id later goes faces shows => ?_
    have round := succeeds_indexRound completes isIndex (by omega) shows faces
    refine succeeds_yield round fun next linked links faces shown => ?_
    exact more next linked (goes.trans links) faces shown

/-- Nothing more is read after an operand. -/
theorem succeeds_chainEnd {holds : NodeId → Forest → Prop} {id : NodeId} (ends : EndsOperand rest)
    (faces : now.Faces soft rounds rest) (known : holds id now.forest) :
    (repeatWithin grammar.chainStep (count + 1) id).Succeeds soft rounds now rest holds := by
  refine succeeds_done (succeeds_nodeSpan.mpr (succeeds_currentTag faces ?_))
  split
  · next isDot => exact absurd isDot ends.notMember
  · next isBracket => exact absurd isBracket ends.notIndex
  · exact .pure faces ⟨id, rfl, known⟩

/-- An operand is read. -/
theorem succeeds_operand (completes : grammar.Completes soft rounds bound)
    {expression : Expression} (stratified : expression.IsStratified)
    (tight : BindingPower.unary.rank ≤ expression.power.rank)
    (short : expression.lexemes.length ≤ bound + 1) (ends : EndsOperand rest)
    (faces : now.Faces soft rounds (expression.kinds ++ rest)) :
    grammar.operand.Succeeds soft rounds now rest fun id forest => forest.Shows expression id := by
  have primary (postfixed : expression.power = .postfixed) :
      grammar.operand.Succeeds soft rounds now rest fun id forest => forest.Shows expression id := by
    have fewer := expression.links_lt stratified
    have less := faces.length_lt
    rw [List.length_append] at less
    obtain ⟨count, enough⟩ : ∃ count, grammar.rounds = count + 1 + expression.links :=
      ⟨rounds - 1 - expression.links, by rw [completes.sameRounds]; omega⟩
    obtain ⟨kind, more, same, _, plain⟩ := expression.head_kinds stratified
    have noSign : UnaryOp.ofTag? (tagAt (expression.kinds ++ rest) 0) = none := by
      rw [same]
      exact plain postfixed
    unfold Grammar.operand
    refine succeeds_currentTag faces ?_
    rw [noSign]
    simp only [chain_eq, enough]
    exact succeeds_postfixed completes stratified postfixed short ends.toEndsName faces
      fun id later _ faces shows => succeeds_chainEnd ends faces shows
  cases expression with
  | unary op inner =>
    obtain ⟨isTight, isInner⟩ := stratified
    simp only [Expression.lexemes, List.length_cons] at short
    rw [Expression.kinds_unary, List.cons_append] at faces
    have sign : UnaryOp.ofTag? (tagAt (.fixed op.tag op.spelled :: (inner.kinds ++ rest)) 0) =
        some op := by
      cases op <;> rfl
    unfold Grammar.operand
    refine succeeds_currentTag faces ?_
    rw [sign]
    refine .bind (succeeds_advance faces) fun _ signed _ faces _ => ?_
    refine .bind (completes.operand isInner isTight (by omega) ends faces)
      fun id later _ faces shows => ?_
    exact succeeds_closed faces fun _ _ grows has => ⟨id, has, shows.mono grows⟩
  | operation operator left right =>
    exact absurd tight (Nat.not_le_of_lt operator.op.power_lt_unary)
  | _ => exact primary rfl

/-- No more operators are read. -/
theorem succeeds_infixEnd {holds : NodeId → Forest → Prop} {least : BindingPower} {id : NodeId}
    (ends : EndsExpression least rest) (faces : now.Faces soft rounds rest)
    (known : holds id now.forest) :
    (repeatWithin (grammar.infixStep least) (count + 1) id).Succeeds soft rounds now rest
      holds := by
  refine succeeds_done (succeeds_currentTag faces ?_)
  split
  · exact .pure faces ⟨id, rfl, known⟩
  · next op isOp =>
    rw [if_pos (ends.loose op isOp)]
    exact .pure faces ⟨id, rfl, known⟩

/-- The first operand is read, and after it the operators on the left spine with their right
operands; then come the rounds that are left. -/
theorem succeeds_operators (completes : grammar.Completes soft rounds bound)
    {least : BindingPower} {expression : Expression} {count : Nat} {now : Parser}
    {rest last : List (TokenKind String)} {holds : NodeId → Forest → Prop}
    (stratified : expression.IsStratified) (tight : least.rank ≤ expression.power.rank)
    (short : expression.lexemes.length ≤ bound + 1)
    (ends : EndsExpression expression.lastPower rest)
    (faces : now.Faces soft rounds (expression.kinds ++ rest))
    (more : ∀ id later, now.Goes later → later.Faces soft rounds rest →
      later.forest.Shows expression id →
      (repeatWithin (grammar.infixStep least) count id).Succeeds soft rounds later last holds) :
    Succeeds soft rounds
      (grammar.operand >>= repeatWithin (grammar.infixStep least) (count + expression.operators))
      now last holds := by
  match expression with
  | .operation operator left right =>
    obtain ⟨leftTight, isLeft, rightTight, isRight⟩ := stratified
    simp only [Expression.lexemes, List.length_append, List.length_cons] at short
    rw [Expression.kinds_operation, List.append_assoc, List.cons_append] at faces
    rw [Expression.operators, Nat.add_comm _ 1, ← Nat.add_assoc]
    change least.rank ≤ operator.op.power.rank at tight
    have leftEnds : EndsExpression left.lastPower
        (.fixed operator.tag operator.spelled :: (right.kinds ++ rest)) := by
      refine ⟨endsOperand_of_operator operator.reads, fun op isOp => ?_⟩
      obtain rfl := Option.some.inj (operator.reads.symm.trans isOp)
      exact Expression.power_lt_lastPower leftTight
    have le := operator.op.power_le_leftPower
    refine succeeds_operators completes isLeft (by omega) (by omega) leftEnds faces
      fun id later goes faces shows => ?_
    have round : (grammar.infixStep least id).Succeeds soft rounds later rest
        fun result forest =>
          ∃ next, result = .yield next ∧ forest.Shows (.operation operator left right) next := by
      have reads : InfixOp.ofTag? (tagAt (.fixed operator.tag operator.spelled ::
          (right.kinds ++ rest)) 0) = some operator.op := operator.reads
      refine succeeds_currentTag faces ?_
      rw [reads]
      dsimp only
      rw [if_neg (by omega)]
      refine .bind (succeeds_advance faces) fun _ signed signs faces _ => ?_
      refine succeeds_nodeSpan.mpr ?_
      refine .bind (completes.expression isRight rightTight (by omega) ends faces)
        fun second read reads faces shown => ?_
      have node : Succeeds soft rounds
          (liftM (Build.close (infixNode operator.op id second) (signed.arena.span id))) read rest
          fun next forest => forest.Shows (.operation operator left right) next :=
        succeeds_closed faces fun next forest grows has =>
          ⟨id, second, has, shows.mono (signs.forest.trans (reads.forest.trans grows)),
            shown.mono grows⟩
      exact .bind node fun next linked _ faces shown => .pure faces ⟨next, rfl, shown⟩
    refine succeeds_yield round fun next linked links faces shown => ?_
    exact more next linked (goes.trans links) faces shown
  | .atom _ | .string _ | .array _ | .hash _ | .parenthesized _ | .call _ _ | .unary _ _
  | .member _ _ | .memberCall _ _ _ | .subscript _ _ =>
    exact .bind (succeeds_operand completes stratified (Nat.le_of_ble_eq_true rfl) short
      ends.toEndsOperand faces) more

/-- An expression is read. -/
theorem succeeds_expressionFrom (completes : grammar.Completes soft rounds bound)
    {expression : Expression} {least : BindingPower} (stratified : expression.IsStratified)
    (tight : least.rank ≤ expression.power.rank) (short : expression.lexemes.length ≤ bound + 1)
    (ends : EndsExpression least rest)
    (faces : now.Faces soft rounds (expression.kinds ++ rest)) :
    (grammar.expressionFrom least).Succeeds soft rounds now rest fun id forest =>
      forest.Shows expression id := by
  have fewer := expression.operators_lt stratified
  have less := faces.length_lt
  rw [List.length_append] at less
  obtain ⟨count, enough⟩ : ∃ count, grammar.rounds = count + 1 + expression.operators :=
    ⟨rounds - 1 - expression.operators, by rw [completes.sameRounds]; omega⟩
  have tighter := Nat.le_trans tight expression.power_le_lastPower
  rw [expressionFrom_eq]
  simp only [loop, enough]
  exact succeeds_operators completes stratified tight short (ends.mono tighter) faces
    fun id later _ faces shows => succeeds_infixEnd ends faces shows

end Parser

namespace Grammar

/-- At every level the readings one level deeper read every expression that is written with at
most as many lexemes as there are levels. -/
theorem completes_level (options : ParseOptions) (soft : SoftNames) (rounds levels : Nat) :
    (level options soft rounds levels).Completes soft rounds levels := by
  induction levels with
  | zero =>
    have filled (expression : Expression) (stratified : expression.IsStratified) :
        ¬expression.lexemes.length ≤ 0 := by
      intro empty
      obtain ⟨kind, more, same, _⟩ := expression.head_kinds stratified
      rw [Expression.kinds, List.length_eq_zero_iff.mp (Nat.le_zero.mp empty)] at same
      contradiction
    exact ⟨rfl, fun stratified _ empty => absurd empty (filled _ stratified),
      fun stratified _ empty => absurd empty (filled _ stratified)⟩
  | succ levels ih =>
    have deeper (request : Request) : (level options soft rounds (levels + 1)).deeper request =
        (level options soft rounds levels).reading request :=
      descend_succ options soft rounds levels request
    refine ⟨rfl, fun stratified tight short ends faces => ?_,
      fun stratified tight short ends faces => ?_⟩
    · rw [deeper]
      exact Parser.succeeds_expressionFrom ih stratified tight short ends faces
    · rw [deeper]
      exact Parser.succeeds_operand ih stratified tight short ends faces

end Grammar

end Vibescript
