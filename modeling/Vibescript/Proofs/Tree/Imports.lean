import Vibescript.Proofs.Tree.Expression

/-!
# Expressions that are imports

An assignment of a call of the import function is an import when its arguments are a path and
perhaps a local name. Which expressions these are can be told from their tokens: after the tokens of
an import, nothing that belongs to the same expression can follow, unless it goes on with the call.
-/
namespace Vibescript

open TokenKind Lookahead

/-- The arguments of an import: a path, and perhaps a local name under its key. -/
inductive Items.AreImport : Items → Prop
  /-- A path. -/
  | path (path : Literal) : AreImport (.cons none (.string path) .nil)
  /-- A path and a local name. -/
  | named (path : Literal) (key : Identifier) (isAs : key.name = "as") (name : Literal) :
    AreImport (.cons none (.string path) (.cons (some (.name key)) (.string name) .nil))

/-- The shape of an import: a name is assigned a call of the import function. -/
inductive Expression.IsImport : Expression → Prop
  /-- The only shape. -/
  | intro (operator : Operator) (target : Atom) (method : Identifier) (arguments : Items)
    (isAssign : operator.tag = .assign) (isName : target.kind.tag = .identifier)
    (isRequire : method.name = "require") (areImport : arguments.AreImport) :
    IsImport (.operation operator (.atom target) (.call method arguments))

/-- Pieces of string literals are the same when they are followed by the same. -/
theorem pieces_inj {left right more others : List (TokenKind String)}
    (all : ∀ piece ∈ left, piece.pieceText?.isSome = true)
    (every : ∀ piece ∈ right, piece.pieceText?.isSome = true)
    (same : left ++ .stringClose :: more = right ++ .stringClose :: others) :
    left = right ∧ more = others := by
  induction left generalizing right with
  | nil =>
    cases right with
    | nil => exact ⟨rfl, (List.cons.inj same).2⟩
    | cons piece right =>
      have isPiece := every piece List.mem_cons_self
      rw [← (List.cons.inj same).1] at isPiece
      contradiction
  | cons first left ih =>
    have isFirst := all first List.mem_cons_self
    cases right with
    | nil =>
      rw [(List.cons.inj same).1] at isFirst
      contradiction
    | cons piece right =>
      obtain ⟨rfl, rest⟩ := List.cons.inj same
      obtain ⟨rfl, rfl⟩ := ih (fun piece member => all piece (List.mem_cons_of_mem _ member))
        (fun piece member => every piece (List.mem_cons_of_mem _ member)) rest
      exact ⟨rfl, rfl⟩

namespace Expression

/-- Whether an expression is one by its first token: it goes on with no other expression. -/
def isSingle : Expression → Bool
  | member .. | memberCall .. | subscript .. | operation .. => false
  | _ => true

/-- What goes on with an expression comes first in everything that it is followed by. -/
theorem continues_append {tail : List (TokenKind String)}
    (continues : continuesExpression (tagAt tail 0) = true) (more : List (TokenKind String)) :
    continuesExpression (tagAt (tail ++ more) 0) = true := by
  cases tail with
  | nil => contradiction
  | cons kind tail => exact continues

/-- An expression is a single one with what goes on with it after it. -/
structure GoesOn (whole first : Expression) (tail : List (TokenKind String)) : Prop where
  /-- What goes on comes after the single one. -/
  same : whole.kinds = first.kinds ++ tail
  /-- The first one is single. -/
  single : first.isSingle = true
  /-- It is stratified when the whole is. -/
  stratified : whole.IsStratified → first.IsStratified
  /-- Nothing goes on, or what does can. -/
  ends : tail = [] ∧ whole = first ∨ continuesExpression (tagAt tail 0) = true

/-- What goes on with a part of an expression comes first in what goes on with the whole. -/
theorem GoesOn.further {whole part first : Expression} {tail more : List (TokenKind String)}
    (goesOn : part.GoesOn first tail) (isPart : whole.IsStratified → part.IsStratified)
    (same : whole.kinds = part.kinds ++ more)
    (continues : continuesExpression (tagAt more 0) = true) :
    whole.GoesOn first (tail ++ more) := by
  refine ⟨by rw [same, goesOn.same, List.append_assoc], goesOn.single,
    goesOn.stratified ∘ isPart, .inr ?_⟩
  rcases goesOn.ends with ⟨rfl, _⟩ | ends
  · exact continues
  · exact continues_append ends more

/-- Every expression starts with a single one. -/
theorem exists_goesOn (expression : Expression) : ∃ first tail, expression.GoesOn first tail := by
  match expression with
  | .atom _ | .string _ | .array _ | .hash _ | .parenthesized _ | .call _ _ | .unary _ _ =>
    exact ⟨_, [], (List.append_nil _).symm, rfl, id, .inl ⟨rfl, rfl⟩⟩
  | .member receiver name =>
    obtain ⟨first, tail, goesOn⟩ := exists_goesOn receiver
    exact ⟨first, _, goesOn.further (·.2) (kinds_member name) rfl⟩
  | .memberCall receiver method arguments =>
    obtain ⟨first, tail, goesOn⟩ := exists_goesOn receiver
    exact ⟨first, _, goesOn.further (·.2.1) (kinds_memberCall method) rfl⟩
  | .subscript receiver index =>
    obtain ⟨first, tail, goesOn⟩ := exists_goesOn receiver
    exact ⟨first, _, goesOn.further (·.2.1) kinds_subscript rfl⟩
  | .operation operator left right =>
    have isOperator : continuesExpression operator.tag = true := by
      rw [continuesExpression, operator.reads]
      exact Bool.or_true _
    obtain ⟨first, tail, goesOn⟩ := exists_goesOn left
    exact ⟨first, _, goesOn.further (·.2.1) (kinds_operation operator) isOperator⟩

/-- An expression that starts with a string literal is that literal, unless something goes on with
it. -/
theorem eq_string {value : Expression} {rest more pieces : List (TokenKind String)}
    (whole : value.kinds ++ rest = .stringOpen :: (pieces ++ .stringClose :: more))
    (all : ∀ piece ∈ pieces, piece.pieceText?.isSome = true)
    (ends : continuesExpression (tagAt more 0) = false) :
    ∃ literal, value = .string literal ∧ rest = more := by
  obtain ⟨first, tail, same, single, _, goesOn⟩ := value.exists_goesOn
  rw [same, List.append_assoc] at whole
  cases first with
  | string literal =>
    rw [kinds_string, List.cons_append, List.append_assoc] at whole
    have after : tail ++ rest = more := (pieces_inj literal.all all (List.cons.inj whole).2).2
    rcases goesOn with ⟨rfl, isFirst⟩ | goesOn
    · exact ⟨literal, isFirst, after⟩
    · rw [← after, continues_append goesOn rest] at ends
      contradiction
  | atom word =>
    have isOperand := word.isOperand
    rw [(List.cons.inj whole).1] at isOperand
    contradiction
  | _ => first | contradiction | simp at whole

/-- An expression that starts with a name and a parenthesis starts with a call. -/
theorem exists_call {expression : Expression} {name : String} {tail : List (TokenKind String)}
    (whole : expression.kinds = .identifier name :: .fixed .leftParen :: tail) :
    ∃ method items last, method.name = name ∧ expression.GoesOn (call method items) last ∧
      items.kinds ++ .fixed .rightParen :: last = tail := by
  obtain ⟨first, last, goesOn⟩ := expression.exists_goesOn
  have ends := goesOn.ends
  have single := goesOn.single
  rw [goesOn.same] at whole
  cases first with
  | call method items =>
    rw [kinds_call, List.cons_append, List.cons_append, List.append_assoc] at whole
    obtain ⟨isName, opened⟩ := List.cons.inj whole
    exact ⟨method, items, last, TokenKind.identifier.inj isName, goesOn,
      (List.cons.inj opened).2⟩
  | atom word =>
    have opens : last = .fixed .leftParen :: tail := (List.cons.inj whole).2
    rw [opens] at ends
    rcases ends with ⟨empty, _⟩ | ends <;> contradiction
  | _ => first | contradiction | simp at whole

/-- An expression is a name that an assignment follows, or it is that assignment. -/
inductive Assigns (name : String) (rest tail : List (TokenKind String)) : Expression → Prop
  /-- The name. -/
  | name (word : Atom) (isName : word.kind = .identifier name)
    (follows : rest = .fixed .assign :: tail) : Assigns name rest tail (.atom word)
  /-- The assignment. -/
  | whole (operator : Operator) (word : Atom) (right : Expression)
    (isAssign : operator.tag = .assign) (isName : word.kind = .identifier name)
    (follows : right.kinds ++ rest = tail) :
    Assigns name rest tail (.operation operator (.atom word) right)

variable {name : String} {rest tail : List (TokenKind String)}

/-- A receiver or a left operand is no assignment. -/
theorem Assigns.tight {expression : Expression} (assigns : expression.Assigns name rest tail)
    (tight : 0 < expression.power.rank) :
    (∃ word, expression = .atom word ∧ word.kind = .identifier name) ∧
      rest = .fixed .assign :: tail := by
  cases assigns with
  | name word isName follows => exact ⟨⟨word, rfl, isName⟩, follows⟩
  | whole operator word right isAssign isName follows =>
    have reads := operator.reads
    rw [isAssign] at reads
    change 0 < operator.op.power.rank at tight
    rw [← Option.some.inj reads] at tight
    exact absurd tight (Nat.lt_irrefl _)

/-- An expression that starts with a name and an assignment is the name, or the assignment. -/
theorem assigns_of_kinds (expression : Expression) (stratified : expression.IsStratified)
    {rest : List (TokenKind String)}
    (whole : expression.kinds ++ rest = .identifier name :: .fixed .assign :: tail) :
    expression.Assigns name rest tail := by
  match expression with
  | .atom word =>
    obtain ⟨isName, follows⟩ := List.cons.inj whole
    exact .name word isName follows
  | .member receiver word =>
    rw [kinds_member, List.append_assoc] at whole
    have follows := ((assigns_of_kinds receiver stratified.2 whole).tight
      (by rw [stratified.1]; decide)).2
    exact absurd (List.cons.inj follows).1 nofun
  | .memberCall receiver method arguments =>
    rw [kinds_memberCall, List.append_assoc] at whole
    have follows := ((assigns_of_kinds receiver stratified.2.1 whole).tight
      (by rw [stratified.1]; decide)).2
    exact absurd (List.cons.inj follows).1 nofun
  | .subscript receiver index =>
    rw [kinds_subscript, List.append_assoc] at whole
    have follows := ((assigns_of_kinds receiver stratified.2.1 whole).tight
      (by rw [stratified.1]; decide)).2
    exact absurd (List.cons.inj follows).1 nofun
  | .operation operator left right =>
    rw [kinds_operation, List.append_assoc] at whole
    have positive := Nat.lt_of_lt_of_le operator.op.leftPower_pos stratified.1
    obtain ⟨⟨word, rfl, isName⟩, follows⟩ :=
      (assigns_of_kinds left stratified.2.1 whole).tight positive
    obtain ⟨isAssign, after⟩ := List.cons.inj follows
    exact .whole operator word right (TokenKind.fixed.inj isAssign) isName after
  | .call method arguments =>
    rw [kinds_call] at whole
    exact absurd (List.cons.inj (List.cons.inj whole).2).1 nofun
  | .string _ | .array _ | .hash _ | .parenthesized _ | .unary _ _ => simp at whole

end Expression

/-- What comes after the path of an import, up to what comes after the import. -/
inductive ImportEnds (rest : List (TokenKind String)) : List (TokenKind String) → Prop
  /-- The closing parenthesis. -/
  | closes : ImportEnds rest (.fixed .rightParen :: rest)
  /-- A local name. -/
  | named (pieces : List (TokenKind String))
    (all : ∀ piece ∈ pieces, piece.pieceText?.isSome = true) :
    ImportEnds rest (.fixed .comma :: .identifier "as" :: .fixed .colon :: .stringOpen ::
      (pieces ++ .stringClose :: .fixed .rightParen :: rest))

/-- What comes after an item is no colon. -/
theorem Items.opensValue_after (others : Items) (last : List (TokenKind String)) :
    (tagAt ((if others.isEmpty then [] else [.fixed .comma]) ++
      (others.kinds ++ .fixed .rightParen :: last)) 0).opensValue = false := by
  cases others <;> rfl

/-- Arguments with the tokens of a local name are that name under its key. -/
theorem Items.eq_named {items : Items} (stratified : items.AreStratified .arguments)
    {last rest pieces : List (TokenKind String)}
    (whole : items.kinds ++ .fixed .rightParen :: last =
      .identifier "as" :: .fixed .colon :: .stringOpen ::
        (pieces ++ .stringClose :: .fixed .rightParen :: rest))
    (all : ∀ piece ∈ pieces, piece.pieceText?.isSome = true) :
    ∃ key literal, items = .cons (some (.name key)) (.string literal) .nil ∧ key.name = "as" ∧
      last = rest := by
  cases items with
  | nil => simp at whole
  | cons key value others =>
    rw [kinds_cons] at whole
    cases key with
    | none =>
      simp only [Option.elim_none, List.nil_append, List.append_assoc] at whole
      have plain := value.second_kinds (by rw [whole]; rfl) (others.opensValue_after last)
      rw [whole] at plain
      contradiction
    | some key =>
      cases key with
      | text literal => simp at whole
      | name key =>
        simp only [Option.elim_some, Key.kinds_name, List.cons_append, List.nil_append,
          List.append_assoc] at whole
        obtain ⟨isAs, colon⟩ := List.cons.inj whole
        obtain ⟨literal, rfl, after⟩ := Expression.eq_string (List.cons.inj colon).2 all rfl
        cases others with
        | nil =>
          exact ⟨key, literal, rfl, TokenKind.identifier.inj isAs, (List.cons.inj after).2⟩
        | cons => exact absurd (congrArg TokenKind.tag (List.cons.inj after).1) Tag.noConfusion

/-- Arguments with the tokens of those of an import are the arguments of an import. -/
theorem Items.areImport_of_kinds {items : Items} (stratified : items.AreStratified .arguments)
    {last rest tail pieces : List (TokenKind String)}
    (whole : items.kinds ++ .fixed .rightParen :: last =
      .stringOpen :: (pieces ++ .stringClose :: tail))
    (all : ∀ piece ∈ pieces, piece.pieceText?.isSome = true) (ends : ImportEnds rest tail) :
    items.AreImport ∧ last = rest := by
  have stops : continuesExpression (tagAt tail 0) = false := by cases ends <;> rfl
  cases items with
  | nil => simp at whole
  | cons key value others =>
    obtain ⟨allowed, isValue, areOthers⟩ := stratified
    have noKey : key = none := by
      cases key with
      | none => rfl
      | some key =>
        cases key with
        | name identifier => simp at whole
        | text literal => contradiction
    subst noKey
    rw [kinds_cons] at whole
    simp only [Option.elim_none, List.nil_append, List.append_assoc] at whole
    obtain ⟨literal, rfl, after⟩ := Expression.eq_string whole all stops
    cases others with
    | nil =>
      cases ends with
      | closes => exact ⟨.path literal, (List.cons.inj after).2⟩
      | named names every =>
        exact absurd (congrArg TokenKind.tag (List.cons.inj after).1) Tag.noConfusion
    | cons key other more =>
      cases ends with
      | closes => exact absurd (congrArg TokenKind.tag (List.cons.inj after).1) Tag.noConfusion
      | named names every =>
        obtain ⟨name, localName, same, isAs, isLast⟩ :=
          eq_named areOthers (List.cons.inj after).2 every
        rw [same]
        exact ⟨.named literal name isAs localName, isLast⟩

/-- An expression with the tokens of an import is one, unless it goes on after them. -/
theorem Expression.isImport_of_kinds {expression : Expression}
    (stratified : expression.IsStratified) {target : String}
    {pieces tail rest : List (TokenKind String)}
    (whole : expression.kinds = .identifier target :: .fixed .assign :: .identifier "require" ::
      .fixed .leftParen :: .stringOpen :: (pieces ++ .stringClose :: tail))
    (all : ∀ piece ∈ pieces, piece.pieceText?.isSome = true) (ends : ImportEnds rest tail)
    (stops : continuesExpression (tagAt rest 0) = false) : expression.IsImport := by
  rw [← List.append_nil expression.kinds] at whole
  cases expression.assigns_of_kinds stratified whole with
  | name word isName follows => contradiction
  | whole operator word right isAssign isName follows =>
    obtain ⟨_, _, _, isRight⟩ := stratified
    rw [List.append_nil] at follows
    obtain ⟨method, items, last, isRequire, goesOn, inside⟩ := exists_call follows
    obtain ⟨areImport, rfl⟩ := Items.areImport_of_kinds (goesOn.stratified isRight) inside all ends
    have isName : word.kind.tag = .identifier := by rw [isName]; rfl
    rcases goesOn.ends with ⟨_, rfl⟩ | continues
    · exact .intro operator word method items isAssign isName isRequire areImport
    · rw [stops] at continues
      contradiction

end Vibescript
