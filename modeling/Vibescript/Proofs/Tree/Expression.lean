import Vibescript.Parser.Expression
import Vibescript.Proofs.Cursor.Lookahead
import Vibescript.Proofs.Source.Lexemes
import Vibescript.Proofs.Tree.Growth
import Vibescript.Proofs.Tree.Production

/-!
# Expressions apart from any source text

An expression is written with lexemes. It is stratified when every operand binds as tightly as its
operator demands; this is the grammar of expressions with one level for each binding power. An
expression stands at a node of a tree when the node and those below it are the expression.
-/
namespace Vibescript

/-- The tag that a unary operator is written with. -/
def UnaryOp.tag : UnaryOp → Tag
  | negate => .minus
  | not => .bang

/-- Whether a token makes the name before it the key of an argument. -/
def Tag.opensValue (tag : Tag) : Bool := tag == .colon || tag == .symbol

/-- Whether a token is an expression by itself: a name, a literal or a reserved word. -/
def TokenKind.isOperand {ν : Type} : TokenKind ν → Bool
  | identifier _ | constant _ | integer _ | float _ | symbol _ | instanceVariable _
  | classVariable _ => true
  | fixed tag _ => tag == .kwTrue || tag == .kwFalse || tag == .kwNil || tag == .kwSelf
  | _ => false

/-- The token that a node without children is. -/
def NodeKind.atom? : NodeKind → Option (TokenKind Name)
  | identifier name => some (.identifier name)
  | constant name => some (.constant name)
  | integer value => some (.integer value)
  | float value => some (.float value)
  | symbol name => some (.symbol name)
  | instanceVariable name => some (.instanceVariable name)
  | classVariable name => some (.classVariable name)
  | trueLiteral => some (.fixed .kwTrue)
  | falseLiteral => some (.fixed .kwFalse)
  | nilLiteral => some (.fixed .kwNil)
  | selfReference => some (.fixed .kwSelf)
  | _ => none

namespace Lexeme

/-- A reserved word, an operator or a punctuation mark. -/
def word (tag : Tag) (spelled : tag.spelling?.isSome = true := by exact .refl true) : Lexeme :=
  ⟨tag.spelling?.get spelled, [.fixed tag spelled], List.cons_ne_nil _ _,
    isLexeme_spelling tag spelled⟩

end Lexeme

/-- A name in lower case. -/
structure Identifier where
  /-- The name. -/
  name : String
  /-- It is read as an identifier. -/
  isLexeme : IsLexeme name.toList [.identifier name]

/-- The text of a name. -/
def Identifier.lexeme (identifier : Identifier) : Lexeme :=
  ⟨identifier.name, [.identifier identifier.name], List.cons_ne_nil _ _, identifier.isLexeme⟩

/-- A token that is an expression by itself. -/
structure Atom where
  /-- The text. -/
  text : String
  /-- The token. -/
  kind : TokenKind String
  /-- The token is an expression. -/
  isOperand : kind.isOperand = true
  /-- The text is read as the token. -/
  isLexeme : IsLexeme text.toList [kind]

/-- The text of a token. -/
def Atom.lexeme (atom : Atom) : Lexeme :=
  ⟨atom.text, [atom.kind], List.cons_ne_nil _ _, atom.isLexeme⟩

/-- A string literal. -/
structure Literal where
  /-- The text, quotation marks and all. -/
  text : String
  /-- The tokens between the quotation marks. -/
  pieces : List (TokenKind String)
  /-- They are text and escapes. -/
  all : ∀ piece ∈ pieces, piece.pieceText?.isSome = true
  /-- The text is read as the tokens. -/
  isLexeme : IsLexeme text.toList (.stringOpen :: (pieces ++ [.stringClose]))

namespace Literal

/-- The text of a string literal. -/
def lexeme (literal : Literal) : Lexeme :=
  ⟨literal.text, .stringOpen :: (literal.pieces ++ [.stringClose]), List.cons_ne_nil _ _,
    literal.isLexeme⟩

/-- What a string literal stands for. -/
def value (literal : Literal) : String :=
  String.join (literal.pieces.filterMap TokenKind.pieceText?)

end Literal

/-- An infix operator in one of its spellings. -/
structure Operator where
  /-- The token. -/
  tag : Tag
  /-- The operator. -/
  op : InfixOp
  /-- The token is the operator. -/
  reads : InfixOp.ofTag? tag = some op

namespace Operator

/-- An infix operator has a spelling. -/
theorem spelled (operator : Operator) : operator.tag.spelling?.isSome = true := by
  have reads := operator.reads
  cases tag : operator.tag <;> rw [tag] at reads <;> first | rfl | contradiction

/-- The text of an infix operator. -/
def lexeme (operator : Operator) : Lexeme := .word operator.tag operator.spelled

end Operator

/-- Unary operators have a spelling. -/
theorem UnaryOp.spelled (op : UnaryOp) : op.tag.spelling?.isSome = true := by
  cases op <;> rfl

/-- The key of an item of a list. -/
inductive Key where
  /-- A name. -/
  | name (identifier : Identifier)
  /-- A text. -/
  | text (literal : Literal)

namespace Key

/-- A key with its colon. -/
def lexemes : Key → List Lexeme
  | name identifier => [identifier.lexeme, .word .colon]
  | text literal => [literal.lexeme, .word .colon]

end Key

/-- The lists that items stand in. -/
inductive ListKind where
  /-- An array literal. -/
  | array
  /-- A hash literal. -/
  | hash
  /-- An argument list. -/
  | arguments

namespace ListKind

/-- Whether an item of a list may have a key, or none. -/
def allows : ListKind → Option Key → Bool
  | array, none | arguments, none | arguments, some (.name _) | hash, some _ => true
  | _, _ => false

/-- The node of an item with a key. -/
def keyed : ListKind → NodeId → NodeId → NodeKind
  | hash => .hashEntry
  | _ => .keywordArgument

end ListKind

mutual

/-- An expression. -/
inductive Expression where
  /-- A token. -/
  | atom (atom : Atom)
  /-- A string literal. -/
  | string (literal : Literal)
  /-- An array literal. -/
  | array (elements : Items)
  /-- A hash literal. -/
  | hash (entries : Items)
  /-- An expression in parentheses. -/
  | parenthesized (inner : Expression)
  /-- A call. -/
  | call (method : Identifier) (arguments : Items)
  /-- A member of a receiver. -/
  | member (receiver : Expression) (name : Identifier)
  /-- A call of a method of a receiver. -/
  | memberCall (receiver : Expression) (method : Identifier) (arguments : Items)
  /-- An element by its index. -/
  | subscript (receiver index : Expression)
  /-- An operator before an operand. -/
  | unary (op : UnaryOp) (operand : Expression)
  /-- An operator between two operands, or an assignment. -/
  | operation (operator : Operator) (left right : Expression)

/-- Items with commas between them. -/
inductive Items where
  /-- No item. -/
  | nil
  /-- An item before others. -/
  | cons (key : Option Key) (value : Expression) (rest : Items)

end

/-- Whether there are no items. -/
def Items.isEmpty : Items → Bool
  | .nil => true
  | .cons .. => false

mutual

/-- The texts that an expression is written with. -/
def Expression.lexemes : Expression → List Lexeme
  | .atom atom => [atom.lexeme]
  | .string literal => [literal.lexeme]
  | .array elements => .word .leftBracket :: (elements.lexemes ++ [.word .rightBracket])
  | .hash entries => .word .leftBrace :: (entries.lexemes ++ [.word .rightBrace])
  | .parenthesized inner => .word .leftParen :: (inner.lexemes ++ [.word .rightParen])
  | .call method arguments =>
    method.lexeme :: .word .leftParen :: (arguments.lexemes ++ [.word .rightParen])
  | .member receiver name => receiver.lexemes ++ [.word .dot, name.lexeme]
  | .memberCall receiver method arguments =>
    receiver.lexemes ++ .word .dot :: method.lexeme :: .word .leftParen ::
      (arguments.lexemes ++ [.word .rightParen])
  | .subscript receiver index =>
    receiver.lexemes ++ .word .leftBracket :: (index.lexemes ++ [.word .rightBracket])
  | .unary op operand => .word op.tag op.spelled :: operand.lexemes
  | .operation operator left right => left.lexemes ++ operator.lexeme :: right.lexemes

/-- The texts that items are written with. -/
def Items.lexemes : Items → List Lexeme
  | .nil => []
  | .cons key value rest =>
    key.elim [] Key.lexemes ++ value.lexemes ++
      (if rest.isEmpty then [] else [.word .comma]) ++ rest.lexemes

end

namespace Expression

/-- How tightly an expression binds. -/
def power : Expression → BindingPower
  | .unary .. => .unary
  | .operation operator .. => operator.op.power
  | _ => .postfixed

end Expression

mutual

/-- Every operand of an expression binds as tightly as its operator demands. -/
def Expression.IsStratified : Expression → Prop
  | .atom _ | .string _ => True
  | .array elements => elements.AreStratified .array
  | .hash entries => entries.AreStratified .hash
  | .parenthesized inner => inner.IsStratified
  | .call _ arguments => arguments.AreStratified .arguments
  | .member receiver _ => receiver.power = .postfixed ∧ receiver.IsStratified
  | .memberCall receiver _ arguments =>
    receiver.power = .postfixed ∧ receiver.IsStratified ∧ arguments.AreStratified .arguments
  | .subscript receiver index =>
    receiver.power = .postfixed ∧ receiver.IsStratified ∧ index.IsStratified
  | .unary _ operand => BindingPower.unary.rank ≤ operand.power.rank ∧ operand.IsStratified
  | .operation operator left right =>
    operator.op.leftPower.rank ≤ left.power.rank ∧ left.IsStratified ∧
      operator.op.rightPower.rank ≤ right.power.rank ∧ right.IsStratified

/-- Every item is stratified, and has a key where its list demands one. -/
def Items.AreStratified (list : ListKind) : Items → Prop
  | .nil => True
  | .cons key value rest =>
    list.allows key = true ∧ value.IsStratified ∧ rest.AreStratified list

end

/-- The tokens that an expression is written with. -/
def Expression.kinds (expression : Expression) : List (TokenKind String) :=
  expression.lexemes.flatMap Lexeme.kinds

/-- The tokens that items are written with. -/
def Items.kinds (items : Items) : List (TokenKind String) := items.lexemes.flatMap Lexeme.kinds

/-- The tokens of a key and its colon. -/
def Key.kinds (key : Key) : List (TokenKind String) := key.lexemes.flatMap Lexeme.kinds

namespace Expression

variable {receiver left right inner : Expression} {items : Items}

@[simp] theorem kinds_atom (atom : Atom) : (Expression.atom atom).kinds = [atom.kind] := rfl

@[simp] theorem kinds_string (literal : Literal) :
    (Expression.string literal).kinds = .stringOpen :: (literal.pieces ++ [.stringClose]) := by
  simp [kinds, lexemes, Literal.lexeme]

@[simp] theorem kinds_array :
    (array items).kinds = .fixed .leftBracket :: (items.kinds ++ [.fixed .rightBracket]) := by
  simp [kinds, Items.kinds, lexemes, Lexeme.word]

@[simp] theorem kinds_hash :
    (hash items).kinds = .fixed .leftBrace :: (items.kinds ++ [.fixed .rightBrace]) := by
  simp [kinds, Items.kinds, lexemes, Lexeme.word]

@[simp] theorem kinds_parenthesized :
    (parenthesized inner).kinds = .fixed .leftParen :: (inner.kinds ++ [.fixed .rightParen]) := by
  simp [kinds, lexemes, Lexeme.word]

@[simp] theorem kinds_call (method : Identifier) :
    (call method items).kinds =
      .identifier method.name :: .fixed .leftParen :: (items.kinds ++ [.fixed .rightParen]) := by
  simp [kinds, Items.kinds, lexemes, Lexeme.word, Identifier.lexeme]

@[simp] theorem kinds_member (name : Identifier) :
    (member receiver name).kinds =
      receiver.kinds ++ [.fixed .dot, .identifier name.name] := by
  simp [kinds, lexemes, Lexeme.word, Identifier.lexeme]

@[simp] theorem kinds_memberCall (method : Identifier) :
    (memberCall receiver method items).kinds =
      receiver.kinds ++ .fixed .dot :: .identifier method.name :: .fixed .leftParen ::
        (items.kinds ++ [.fixed .rightParen]) := by
  simp [kinds, Items.kinds, lexemes, Lexeme.word, Identifier.lexeme]

@[simp] theorem kinds_subscript :
    (subscript receiver inner).kinds =
      receiver.kinds ++ .fixed .leftBracket :: (inner.kinds ++ [.fixed .rightBracket]) := by
  simp [kinds, lexemes, Lexeme.word]

@[simp] theorem kinds_unary (op : UnaryOp) :
    (unary op inner).kinds = .fixed op.tag op.spelled :: inner.kinds := by
  simp [kinds, lexemes, Lexeme.word]

@[simp] theorem kinds_operation (operator : Operator) :
    (operation operator left right).kinds =
      left.kinds ++ .fixed operator.tag operator.spelled :: right.kinds := by
  simp [kinds, lexemes, Lexeme.word, Operator.lexeme]

end Expression

@[simp] theorem Key.kinds_name (identifier : Identifier) :
    (Key.name identifier).kinds = [.identifier identifier.name, .fixed .colon] := rfl

@[simp] theorem Key.kinds_text (literal : Literal) :
    (Key.text literal).kinds =
      .stringOpen :: (literal.pieces ++ [.stringClose, .fixed .colon]) := by
  simp [kinds, lexemes, Literal.lexeme, Lexeme.word]

@[simp] theorem Items.kinds_nil : Items.nil.kinds = [] := rfl

@[simp] theorem Items.kinds_cons (key : Option Key) (value : Expression) (rest : Items) :
    (Items.cons key value rest).kinds = key.elim [] Key.kinds ++ value.kinds ++
      (if rest.isEmpty then [] else [.fixed .comma]) ++ rest.kinds := by
  cases key <;> cases rest <;>
    simp [kinds, Expression.kinds, Key.kinds, lexemes, Items.isEmpty, Lexeme.word]

namespace InfixOp

/-- No infix operator binds as tightly as a sign does. -/
theorem power_lt_unary (op : InfixOp) : op.power.rank < BindingPower.unary.rank := by
  cases op with
  | binary op => cases op <;> decide
  | _ => exact Nat.zero_lt_succ _

/-- What stands on the left of an operator binds at least as tightly. -/
theorem power_le_leftPower (op : InfixOp) : op.power.rank ≤ op.leftPower.rank := by
  cases op with
  | binary op => exact Nat.le_refl _
  | _ => exact Nat.zero_le _

/-- No assignment stands on the left of an operator. -/
theorem leftPower_pos (op : InfixOp) : 0 < op.leftPower.rank := by
  cases op with
  | binary op => cases op <;> decide
  | _ => exact Nat.zero_lt_one

/-- The right operand of an operator ends before an operator that this one stands on the left of. -/
theorem power_lt_rightPower {op inner : InfixOp} (tight : op.leftPower.rank ≤ inner.power.rank) :
    op.power.rank < inner.rightPower.rank := by
  have le := op.power_le_leftPower
  cases inner with
  | binary inner =>
    have next : inner.power.tighter.rank = inner.power.rank + 1 :=
      BindingPower.rank_tighter _ (by cases inner <;> exact BindingPower.noConfusion)
    change op.leftPower.rank ≤ inner.power.rank at tight
    show op.power.rank < inner.power.tighter.rank
    omega
  | assign =>
    have positive := op.leftPower_pos
    change op.leftPower.rank ≤ 0 at tight
    omega
  | compound inner =>
    have positive := op.leftPower_pos
    change op.leftPower.rank ≤ 0 at tight
    omega

end InfixOp

namespace Expression

/-- Number of rounds that read what comes after the first primary expression. -/
def links : Expression → Nat
  | member receiver _ | memberCall receiver _ _ | subscript receiver _ => receiver.links + 1
  | _ => 0

/-- Number of rounds that read what comes after the first operand. -/
def operators : Expression → Nat
  | operation _ left _ => left.operators + 1
  | _ => 0

/-- How tightly an operator must bind to go on with the last operand. -/
def lastPower : Expression → BindingPower
  | operation operator .. => operator.op.rightPower
  | _ => .postfixed

/-- An operand that is an expression by itself can start one, and it is no sign. -/
theorem startsWith_of_isOperand {kind : TokenKind String} (isOperand : kind.isOperand = true) :
    TagSet.expressionStart.contains kind.tag = true ∧ UnaryOp.ofTag? kind.tag = none := by
  cases kind with
  | fixed tag spelled =>
    simp only [TokenKind.tag]
    cases tag <;> first | exact ⟨by decide, rfl⟩ | exact Bool.noConfusion isOperand
  | _ =>
    simp only [TokenKind.tag]
    first | exact ⟨by decide, rfl⟩ | contradiction

/-- An expression starts with a token that can start one; only a unary operator is a sign. -/
theorem head_kinds (expression : Expression) (stratified : expression.IsStratified) :
    ∃ kind more, expression.kinds = kind :: more ∧
      TagSet.expressionStart.contains kind.tag = true ∧
      (expression.power = .postfixed → UnaryOp.ofTag? kind.tag = none) := by
  match expression with
  | .atom word =>
    obtain ⟨starts, plain⟩ := startsWith_of_isOperand word.isOperand
    exact ⟨word.kind, [], rfl, starts, fun _ => plain⟩
  | .string literal => exact ⟨_, _, kinds_string literal, by decide, fun _ => rfl⟩
  | .array elements => exact ⟨_, _, kinds_array, by decide, fun _ => rfl⟩
  | .hash entries => exact ⟨_, _, kinds_hash, by decide, fun _ => rfl⟩
  | .parenthesized inner => exact ⟨_, _, kinds_parenthesized, by decide, fun _ => rfl⟩
  | .call method arguments =>
    have starts : TagSet.expressionStart.contains .identifier = true := by decide
    exact ⟨_, _, kinds_call method, starts, fun _ => rfl⟩
  | .member receiver name =>
    obtain ⟨postfixed, inner⟩ := stratified
    obtain ⟨kind, more, same, starts, plain⟩ := head_kinds receiver inner
    exact ⟨kind, _, by rw [kinds_member, same]; rfl, starts, fun _ => plain postfixed⟩
  | .memberCall receiver method arguments =>
    obtain ⟨postfixed, inner, _⟩ := stratified
    obtain ⟨kind, more, same, starts, plain⟩ := head_kinds receiver inner
    exact ⟨kind, _, by rw [kinds_memberCall, same]; rfl, starts, fun _ => plain postfixed⟩
  | .subscript receiver index =>
    obtain ⟨postfixed, inner, _⟩ := stratified
    obtain ⟨kind, more, same, starts, plain⟩ := head_kinds receiver inner
    exact ⟨kind, _, by rw [kinds_subscript, same]; rfl, starts, fun _ => plain postfixed⟩
  | .unary op operand =>
    refine ⟨_, _, kinds_unary op, ?_, fun postfixed => absurd postfixed BindingPower.noConfusion⟩
    cases op <;> decide
  | .operation operator left right =>
    obtain ⟨_, inner, _⟩ := stratified
    obtain ⟨kind, more, same, starts, _⟩ := head_kinds left inner
    refine ⟨kind, _, by rw [kinds_operation, same]; rfl, starts, fun postfixed => ?_⟩
    have loose := operator.op.power_lt_unary
    change operator.op.power = .postfixed at postfixed
    rw [postfixed] at loose
    exact absurd loose (by decide)

/-- There are fewer links than tokens. -/
theorem links_lt (expression : Expression) (stratified : expression.IsStratified) :
    expression.links < expression.kinds.length := by
  have filled (inner : Expression) (isInner : inner.IsStratified) : 0 < inner.kinds.length := by
    obtain ⟨kind, more, same, _⟩ := inner.head_kinds isInner
    rw [same]
    exact Nat.zero_lt_succ _
  match expression with
  | .member receiver name =>
    have fewer := links_lt receiver stratified.2
    rw [links, kinds_member, List.length_append, List.length_cons]
    omega
  | .memberCall receiver method arguments =>
    have fewer := links_lt receiver stratified.2.1
    rw [links, kinds_memberCall, List.length_append, List.length_cons]
    omega
  | .subscript receiver index =>
    have fewer := links_lt receiver stratified.2.1
    rw [links, kinds_subscript, List.length_append, List.length_cons]
    omega
  | .atom _ | .string _ | .array _ | .hash _ | .parenthesized _ | .call _ _ | .unary _ _
  | .operation _ _ _ => exact filled _ stratified

/-- There are fewer operators on the left spine than tokens. -/
theorem operators_lt (expression : Expression) (stratified : expression.IsStratified) :
    expression.operators < expression.kinds.length := by
  have filled (inner : Expression) (isInner : inner.IsStratified) : 0 < inner.kinds.length := by
    obtain ⟨kind, more, same, _⟩ := inner.head_kinds isInner
    rw [same]
    exact Nat.zero_lt_succ _
  match expression with
  | .operation operator left right =>
    have fewer := operators_lt left stratified.2.1
    rw [operators, kinds_operation, List.length_append, List.length_cons]
    omega
  | .atom _ | .string _ | .array _ | .hash _ | .parenthesized _ | .call _ _ | .unary _ _
  | .member _ _ | .memberCall _ _ _ | .subscript _ _ => exact filled _ stratified

/-- After the name that an expression starts with comes nothing that makes the name a key, unless it
comes after the expression. -/
theorem second_kinds (expression : Expression) {rest : List (TokenKind String)}
    (starts : TokenKind.tagAt (expression.kinds ++ rest) 0 = .identifier)
    (plain : (TokenKind.tagAt rest 0).opensValue = false) :
    (TokenKind.tagAt (expression.kinds ++ rest) 1).opensValue = false := by
  match expression with
  | .atom word => exact plain
  | .string literal => rw [kinds_string] at starts; contradiction
  | .array elements => rw [kinds_array] at starts; contradiction
  | .hash entries => rw [kinds_hash] at starts; contradiction
  | .parenthesized inner => rw [kinds_parenthesized] at starts; contradiction
  | .call method arguments => rw [kinds_call]; rfl
  | .member receiver name =>
    rw [kinds_member, List.append_assoc] at starts ⊢
    exact second_kinds receiver starts rfl
  | .memberCall receiver method arguments =>
    rw [kinds_memberCall, List.append_assoc] at starts ⊢
    exact second_kinds receiver starts rfl
  | .subscript receiver index =>
    rw [kinds_subscript, List.append_assoc] at starts ⊢
    exact second_kinds receiver starts rfl
  | .unary op operand =>
    rw [kinds_unary] at starts
    cases op <;> contradiction
  | .operation operator left right =>
    rw [kinds_operation, List.append_assoc] at starts ⊢
    refine second_kinds left starts ?_
    have reads := operator.reads
    show operator.tag.opensValue = false
    revert reads
    cases operator.tag <;> first | exact fun _ => rfl | nofun

/-- What goes on with the last operand binds at least as tightly as the expression. -/
theorem power_le_lastPower (expression : Expression) :
    expression.power.rank ≤ expression.lastPower.rank := by
  cases expression with
  | operation operator left right =>
    show operator.op.power.rank ≤ operator.op.rightPower.rank
    cases operator.op with
    | binary op => cases op <;> decide
    | _ => exact Nat.le_refl _
  | _ => exact Nat.le_of_ble_eq_true rfl

/-- An operator does not go on with the last part of its left operand. -/
theorem power_lt_lastPower {op : InfixOp} {left : Expression}
    (tight : op.leftPower.rank ≤ left.power.rank) : op.power.rank < left.lastPower.rank := by
  cases left with
  | operation inner first second => exact InfixOp.power_lt_rightPower tight
  | _ => exact Nat.lt_succ_of_lt op.power_lt_unary

end Expression

/-- An item starts with a token that can start an expression. -/
theorem Items.head_kinds {key : Option Key} {value : Expression} (stratified : value.IsStratified)
    (rest : Items) :
    ∃ kind more, (Items.cons key value rest).kinds = kind :: more ∧
      TagSet.expressionStart.contains kind.tag = true := by
  rw [kinds_cons]
  match key with
  | none =>
    obtain ⟨kind, more, same, starts, _⟩ := value.head_kinds stratified
    exact ⟨kind, _, by rw [same]; rfl, starts⟩
  | some (.name identifier) =>
    have starts : TagSet.expressionStart.contains .identifier = true := by decide
    exact ⟨_, _, rfl, starts⟩
  | some (.text literal) => exact ⟨.stringOpen, _, by simp; rfl, by decide⟩

/-- Where there are no items, there is nothing. -/
theorem Items.eq_nil {items : Items} (empty : items.isEmpty = true) : items = .nil := by
  cases items with
  | nil => rfl
  | cons key value rest => contradiction

/-- A node of a kind. -/
def Arena.Has (arena : Arena) (id : NodeId) (kind : NodeKind) : Prop :=
  ∃ span, arena.node? id = some ⟨kind, span⟩

/-- A name stands for a text. -/
def NameTable.Spells (names : NameTable) (name : Name) (text : String) : Prop :=
  names.Holds name ∧ names.text name = text

/-- A key stands at a node. -/
def Key.StandsAt (arena : Arena) (names : NameTable) : Key → NodeId → Prop
  | name identifier, id => ∃ word, arena.Has id (.identifier word) ∧ names.Spells word identifier.name
  | text literal, id => ∃ value, arena.Has id (.string value) ∧ names.Spells value literal.value

mutual

/-- An expression stands at a node: the node and those below it are the expression. -/
def Expression.StandsAt (arena : Arena) (names : NameTable) : Expression → NodeId → Prop
  | .atom atom, id => ∃ node kind, arena.Has id node ∧ node.atom? = some kind ∧
      kind.Known names ∧ kind.map names.text = atom.kind
  | .string literal, id => ∃ value, arena.Has id (.string value) ∧ names.Spells value literal.value
  | .array elements, id => ∃ range, arena.Has id (.array range) ∧ arena.Contains range ∧
      elements.StandAt arena names .array (arena.list range)
  | .hash entries, id => ∃ range, arena.Has id (.hash range) ∧ arena.Contains range ∧
      entries.StandAt arena names .hash (arena.list range)
  | .parenthesized inner, id => ∃ child, arena.Has id (.parenthesized child) ∧
      inner.StandsAt arena names child
  | .call method arguments, id => ∃ name range, arena.Has id (.call none name range none) ∧
      names.Spells name method.name ∧ arena.Contains range ∧
      arguments.StandAt arena names .arguments (arena.list range)
  | .member receiver name, id => ∃ child word, arena.Has id (.memberAccess child word none) ∧
      receiver.StandsAt arena names child ∧ names.Spells word name.name
  | .memberCall receiver method arguments, id => ∃ child name range,
      arena.Has id (.call (some child) name range none) ∧ receiver.StandsAt arena names child ∧
      names.Spells name method.name ∧ arena.Contains range ∧
      arguments.StandAt arena names .arguments (arena.list range)
  | .subscript receiver index, id => ∃ child place, arena.Has id (.subscript child place) ∧
      receiver.StandsAt arena names child ∧ index.StandsAt arena names place
  | .unary op operand, id => ∃ child, arena.Has id (.unary op child) ∧
      operand.StandsAt arena names child
  | .operation operator left right, id => ∃ first second,
      arena.Has id (Grammar.infixNode operator.op first second) ∧
      left.StandsAt arena names first ∧ right.StandsAt arena names second

/-- Items stand at nodes, an item with a key below a node that holds both. -/
def Items.StandAt (arena : Arena) (names : NameTable) (list : ListKind) :
    Items → List NodeId → Prop
  | .nil, ids => ids = []
  | .cons none value rest, ids => ∃ id others, ids = id :: others ∧
      value.StandsAt arena names id ∧ rest.StandAt arena names list others
  | .cons (some key) value rest, ids => ∃ id others first second, ids = id :: others ∧
      arena.Has id (list.keyed first second) ∧ key.StandsAt arena names first ∧
      value.StandsAt arena names second ∧ rest.StandAt arena names list others

end

variable {before after : Arena} {names more : NameTable}

/-- A node stays while the arena grows. -/
theorem Arena.Has.mono (grows : before.Grows after) {id : NodeId} {kind : NodeKind}
    (has : before.Has id kind) : after.Has id kind :=
  has.imp fun _ found => grows.node? found

/-- A name keeps its text while names are added. -/
theorem NameTable.Spells.mono (grows : names.Grows more) {name : Name} {text : String}
    (spells : names.Spells name text) : more.Spells name text :=
  ⟨grows.holds spells.1, (grows.text spells.1).trans spells.2⟩

/-- A key stays while the tree grows. -/
theorem Key.StandsAt.mono (arena : before.Grows after) (grows : names.Grows more) {key : Key}
    {id : NodeId} (stands : key.StandsAt before names id) : key.StandsAt after more id := by
  cases key with
  | name identifier =>
    obtain ⟨word, has, spells⟩ := stands
    exact ⟨word, has.mono arena, spells.mono grows⟩
  | text literal =>
    obtain ⟨value, has, spells⟩ := stands
    exact ⟨value, has.mono arena, spells.mono grows⟩

mutual

/-- An expression stays while the tree grows. -/
theorem Expression.StandsAt.mono (arena : before.Grows after) (grows : names.Grows more) :
    ∀ {expression : Expression} {id : NodeId}, expression.StandsAt before names id →
      expression.StandsAt after more id
  | .atom _, _, ⟨node, kind, has, isAtom, known, reads⟩ =>
    ⟨node, kind, has.mono arena, isAtom, known.mono grows, (known.map_text grows).trans reads⟩
  | .string _, _, ⟨value, has, spells⟩ => ⟨value, has.mono arena, spells.mono grows⟩
  | .array _, _, ⟨range, has, inside, items⟩ => ⟨range, has.mono arena, arena.contains inside, by
      rw [arena.list inside]
      exact Items.StandAt.mono arena grows items⟩
  | .hash _, _, ⟨range, has, inside, items⟩ => ⟨range, has.mono arena, arena.contains inside, by
      rw [arena.list inside]
      exact Items.StandAt.mono arena grows items⟩
  | .parenthesized _, _, ⟨child, has, inner⟩ =>
    ⟨child, has.mono arena, Expression.StandsAt.mono arena grows inner⟩
  | .call _ _, _, ⟨name, range, has, spells, inside, items⟩ =>
    ⟨name, range, has.mono arena, spells.mono grows, arena.contains inside, by
      rw [arena.list inside]
      exact Items.StandAt.mono arena grows items⟩
  | .member _ _, _, ⟨child, word, has, receiver, spells⟩ =>
    ⟨child, word, has.mono arena, Expression.StandsAt.mono arena grows receiver,
      spells.mono grows⟩
  | .memberCall _ _ _, _, ⟨child, name, range, has, receiver, spells, inside, items⟩ =>
    ⟨child, name, range, has.mono arena, Expression.StandsAt.mono arena grows receiver,
      spells.mono grows, arena.contains inside, by
      rw [arena.list inside]
      exact Items.StandAt.mono arena grows items⟩
  | .subscript _ _, _, ⟨child, place, has, receiver, index⟩ =>
    ⟨child, place, has.mono arena, Expression.StandsAt.mono arena grows receiver,
      Expression.StandsAt.mono arena grows index⟩
  | .unary _ _, _, ⟨child, has, operand⟩ =>
    ⟨child, has.mono arena, Expression.StandsAt.mono arena grows operand⟩
  | .operation _ _ _, _, ⟨first, second, has, left, right⟩ =>
    ⟨first, second, has.mono arena, Expression.StandsAt.mono arena grows left,
      Expression.StandsAt.mono arena grows right⟩

/-- Items stay while the tree grows. -/
theorem Items.StandAt.mono (arena : before.Grows after) (grows : names.Grows more)
    {list : ListKind} : ∀ {items : Items} {ids : List NodeId},
      items.StandAt before names list ids → items.StandAt after more list ids
  | .nil, _, empty => empty
  | .cons none _ _, _, ⟨id, others, same, value, rest⟩ =>
    ⟨id, others, same, Expression.StandsAt.mono arena grows value,
      Items.StandAt.mono arena grows rest⟩
  | .cons (some _) _ _, _, ⟨id, others, first, second, same, has, key, value, rest⟩ =>
    ⟨id, others, first, second, same, has.mono arena, key.mono arena grows,
      Expression.StandsAt.mono arena grows value, Items.StandAt.mono arena grows rest⟩

end

end Vibescript
