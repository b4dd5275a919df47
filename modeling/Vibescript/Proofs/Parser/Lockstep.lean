import Vibescript.Proofs.Cursor.Alignment
import Vibescript.Proofs.Parser.Alike

/-!
# Readings in lockstep

The readings of a grammar are put together from a few steps. `Grammar.Lockstep` relates readings of
two grammars that are put together in the same way, so that two parsers which agree in what these
steps ask of them take the same decisions wherever they stand. Spans decide nothing, and the texts
of names decide nothing apart from the accessors of a class; so answers may differ in them. Whether
the answers agree otherwise, name tables and nodes included, is the parameter `exact`.

What one level deeper and a body do is left open, so the relation also serves where a body of one
parse has other statements than that of the other. The members of a class are put together of
readings of the same level; `outer` says whether they are taken for granted.
-/
namespace Vibescript

/-- Two answers are the same wherever readings agree exactly. -/
def Same (exact : Prop) {α : Type} (left right : α) : Prop := exact → left = right

/-- Two nodes are the same wherever readings agree exactly, and neither stands for an error. -/
structure SameNode (exact : Prop) (kind other : NodeKind) : Prop where
  /-- They are the same. -/
  same : Same exact kind other
  /-- The first stands for no error. -/
  plain : kind ≠ .error
  /-- The second stands for no error. -/
  plainOther : other ≠ .error

/-- Two lists of items have the same length, and are the same wherever readings agree exactly. -/
structure SameItems (exact : Prop) {α : Type} (left right : Array α) : Prop where
  /-- They have the same length. -/
  size : left.size = right.size
  /-- They are the same. -/
  same : Same exact left right

/-- Two arenas differ in the spans of their nodes only. -/
structure Arena.SameKinds (left right : Arena) : Prop where
  /-- The nodes have the same kinds. -/
  nodes : left.nodes.map Node.kind = right.nodes.map Node.kind
  /-- The lists of children are the same. -/
  lists : left.lists = right.lists
  /-- The lists of names are the same. -/
  names : left.names = right.names

namespace Arena.SameKinds

variable {left right : Arena}

/-- The same kind of node is added. -/
theorem add (same : left.SameKinds right) (kind : NodeKind) (span place : Span) :
    (left.add kind span).1 = (right.add kind place).1 ∧
      (left.add kind span).2.SameKinds (right.add kind place).2 := by
  obtain ⟨nodes, lists, names⟩ := same
  have sizes := congrArg Array.size nodes
  simp only [Array.size_map] at sizes
  refine ⟨congrArg NodeId.mk sizes, ?_, lists, names⟩
  show (left.nodes.push ⟨kind, span⟩).map Node.kind = (right.nodes.push ⟨kind, place⟩).map Node.kind
  rw [Array.map_push, Array.map_push, nodes]

/-- The same list of children is added. -/
theorem addList (same : left.SameKinds right) (ids : List NodeId) :
    (left.addList ids).1 = (right.addList ids).1 ∧
      (left.addList ids).2.SameKinds (right.addList ids).2 := by
  obtain ⟨nodes, lists, names⟩ := same
  unfold Arena.addList
  rw [lists]
  split
  · exact ⟨rfl, nodes, lists, names⟩
  · exact ⟨rfl, nodes, rfl, names⟩

/-- The same list of names is added. -/
theorem addNames (same : left.SameKinds right) (ids : List Name) :
    (left.addNames ids).1 = (right.addNames ids).1 ∧
      (left.addNames ids).2.SameKinds (right.addNames ids).2 := by
  obtain ⟨nodes, lists, names⟩ := same
  unfold Arena.addNames
  rw [names]
  split
  · exact ⟨rfl, nodes, lists, names⟩
  · exact ⟨rfl, nodes, lists, rfl⟩

/-- The pools have the same sizes. -/
theorem mark (same : left.SameKinds right) : left.mark = right.mark := by
  have sizes := congrArg Array.size same.nodes
  rw [Array.size_map, Array.size_map] at sizes
  rw [Arena.mark, Arena.mark, sizes, same.lists, same.names]

/-- The same is taken back. -/
theorem truncate (same : left.SameKinds right) (mark : ArenaMark) :
    (left.truncate mark).SameKinds (right.truncate mark) := by
  obtain ⟨nodes, lists, names⟩ := same
  refine ⟨?_, congrArg (·.take mark.lists) lists, congrArg (·.take mark.names) names⟩
  show (left.nodes.take mark.nodes).map Node.kind = (right.nodes.take mark.nodes).map Node.kind
  rw [Array.take, Array.take, Array.map_extract, Array.map_extract, nodes]

end Arena.SameKinds

/-- Two errors differ in places only. -/
structure ParseError.SameButPlace (left right : ParseError) : Prop where
  /-- The code. -/
  code : left.code = right.code
  /-- What is wrong. -/
  fault : left.fault = right.fault
  /-- The tokens that were expected. -/
  expected : left.expected = right.expected
  /-- The token that was found. -/
  found : left.found = right.found
  /-- The construct. -/
  construct : left.construct = right.construct
  /-- What a related place has to do with the error. -/
  related : left.related.map RelatedPlace.message = right.related.map RelatedPlace.message

/-- Two kinds of token differ in the name only, if at all, and name the same accessor. -/
structure TokenKind.Matches (first second : SoftNames) (exact : Prop)
    (left right : TokenKind Name) : Prop where
  /-- They differ in the name only. -/
  renamed : ∃ rename : Name → Name, right = left.map rename
  /-- They are the same wherever readings agree exactly. -/
  same : Same exact left right
  /-- They name the same accessor. -/
  accessor : ∀ name other, left = .identifier name → right = .identifier other →
    first.accessor? name = second.accessor? other

/-- A kind matches itself. -/
theorem TokenKind.Matches.refl (soft : SoftNames) (exact : Prop) (kind : TokenKind Name) :
    kind.Matches soft soft exact kind := by
  refine ⟨⟨id, ?_⟩, fun _ => rfl, fun name other isName isOther => ?_⟩
  · cases kind <;> rfl
  · obtain rfl := TokenKind.identifier.inj (isName.symm.trans isOther)
    rfl

/-- Kinds that match have the same tag. -/
theorem TokenKind.Matches.tag {first second : SoftNames} {exact : Prop}
    {left right : TokenKind Name} (alike : Matches first second exact left right) :
    left.tag = right.tag := by
  obtain ⟨rename, rfl⟩ := alike.renamed
  exact (tag_map _ _).symm

/-- The parser with other names and another arena. -/
def Parser.withTables (parser : Parser) (names : NameTable) (arena : Arena) : Parser :=
  { parser with
    cursor := { parser.cursor with lexer := { parser.cursor.lexer with names } }
    arena }

/-- Two parsers have the same names, and nodes that differ in their spans only. -/
structure Parser.SameTables (left right : Parser) : Prop where
  /-- The names are the same. -/
  names : left.cursor.lexer.names = right.cursor.lexer.names
  /-- The nodes differ in their spans only. -/
  arena : left.arena.SameKinds right.arena

namespace Build

variable {α β : Type}

/-- A step that interns names and builds nodes, none of them for an error. -/
def IsStill (step : Build α) : Prop :=
  ∀ parser : Parser, ∃ names arena, parser.cursor.lexer.names.Interns names ∧
    parser.arena.Gains arena ∧ (step parser).2 = parser.withTables names arena

/-- An answer. -/
theorem IsStill.pure (answer : α) : IsStill (Pure.pure answer) :=
  fun parser => ⟨_, parser.arena, .refl, .refl _, rfl⟩

/-- One such step after another. -/
theorem IsStill.bind {step : Build α} {next : α → Build β} (first : step.IsStill)
    (second : ∀ answer, (next answer).IsStill) : IsStill (step >>= next) := by
  intro parser
  obtain ⟨names, arena, interns, gains, same⟩ := first parser
  obtain ⟨others, last, more, adds, ends⟩ := second (step parser).1 (step parser).2
  rw [same] at more adds
  refine ⟨others, last, interns.trans more, gains.trans adds, ?_⟩
  have runs : ((step >>= next) parser).2 = (next (step parser).1 (step parser).2).2 := rfl
  rw [runs, ends, same]
  rfl

/-- Interning a text. -/
theorem isStill_intern (text : String) : IsStill (intern text) :=
  fun parser => ⟨_, parser.arena, .intern .refl text, .refl _, rfl⟩

/-- A step of the arena. -/
theorem isStill_onArena {step : Arena → α × Arena}
    (gains : ∀ arena : Arena, arena.Gains (step arena).2) : IsStill (onArena step) :=
  fun parser => ⟨_, (step parser.arena).2, .refl, gains _, rfl⟩

/-- A directive becomes a node, and its names are interned. -/
theorem isStill_directive (token : Token Name) : (Grammar.directive token).IsStill := by
  have names (texts : List String) : (texts.mapM intern).IsStill := by
    induction texts with
    | nil => exact .pure _
    | cons text texts ih =>
      rw [List.mapM_cons]
      exact .bind (isStill_intern text) fun _ => .bind ih fun _ => .pure _
  unfold Grammar.directive
  split
  · exact isStill_onArena fun arena => arena.gains_add (by nofun) _
  · refine .bind (fun parser => ⟨_, parser.arena, .refl, .refl _, rfl⟩) fun _ => ?_
    exact .bind (names _) fun _ => .bind (isStill_onArena fun arena => arena.gains_addNames _)
      fun _ => isStill_onArena fun arena => arena.gains_add (by nofun) _

/-- Stepping over a token with a tag is a test and a step. -/
theorem eat_eq (tag : Tag) :
    eat tag = (do
      if ← check tag then
        let _ ← advance
        return true
      else return false) := by
  funext parser
  show eat tag parser = (ite (parser.cursor.check tag = true)
    (advance >>= fun _ => Pure.pure true : Build Bool) (Pure.pure false)) parser
  cases found : parser.cursor.check tag with
  | true =>
    rw [if_pos rfl]
    show ((parser.cursor.eat tag).1, parser.withCursor (parser.cursor.eat tag).2) = _
    rw [Cursor.eat, if_pos found]
    rfl
  | false =>
    rw [if_neg Bool.false_ne_true]
    show ((parser.cursor.eat tag).1, parser.withCursor (parser.cursor.eat tag).2) = _
    rw [Cursor.eat, found, if_neg Bool.false_ne_true]
    rfl

end Build

namespace Grammar

open Build Parse

/-- Two rounds of a loop agree: both leave it or both go on. -/
inductive RoundsAgree {α : Type} (agree : α → α → Prop) : ForInStep α → ForInStep α → Prop
  /-- Both leave the loop. -/
  | done {left right : α} (agrees : agree left right) : RoundsAgree agree (.done left) (.done right)
  /-- Both go on. -/
  | yield {left right : α} (agrees : agree left right) :
    RoundsAgree agree (.yield left) (.yield right)

/-- Readings of two grammars that are put together in the same way, with answers that agree. -/
inductive Lockstep (first second : Grammar) (exact outer : Prop) :
    {α : Type} → (α → α → Prop) → Parse α → Parse α → Prop
  /-- An answer. -/
  | pure {α : Type} {agree : α → α → Prop} {left right : α} (agrees : agree left right) :
    Lockstep first second exact outer agree (Pure.pure left) (Pure.pure right)
  /-- One reading after another. -/
  | bind {α β : Type} {between : α → α → Prop} {agree : β → β → Prop} {left right : Parse α}
      {leftNext rightNext : α → Parse β}
      (reading : Lockstep first second exact outer between left right)
      (next : ∀ answer other, between answer other →
        Lockstep first second exact outer agree (leftNext answer) (rightNext other)) :
    Lockstep first second exact outer agree (left >>= leftNext) (right >>= rightNext)
  /-- Less is known of the answers. -/
  | imp {α : Type} {agree weaker : α → α → Prop} {left right : Parse α}
      (reading : Lockstep first second exact outer agree left right)
      (weakens : ∀ answer other, agree answer other → weaker answer other) :
    Lockstep first second exact outer weaker left right
  /-- The cursor, of which the current token and the names are asked for only. -/
  | cursor : Lockstep first second exact outer
      (fun here there : Cursor =>
        here.current.kind.Matches first.soft second.soft exact there.current.kind ∧
          Same exact here.lexer.names there.lexer.names)
      (liftM Build.cursor) (liftM Build.cursor)
  /-- A step that interns names and builds nodes. -/
  | still {α : Type} {agree : α → α → Prop} {left right : Build α} (leftStill : left.IsStill)
      (rightStill : right.IsStill)
      (agrees : ∀ here there : Parser, (exact → here.SameTables there) →
        agree (left here).1 (right there).1 ∧ (exact → (left here).2.SameTables (right there).2)) :
    Lockstep first second exact outer agree (liftM left) (liftM right)
  /-- A step to the next token. -/
  | advance : Lockstep first second exact outer
      (fun token other => token.kind.Matches first.soft second.soft exact other.kind)
      (liftM Build.advance) (liftM Build.advance)
  /-- A split of a symbol. -/
  | splitSymbol :
    Lockstep first second exact outer Eq (liftM Build.splitSymbol) (liftM Build.splitSymbol)
  /-- A question about the tags ahead. -/
  | ask {α : Type} {question : Lookahead α} (byTags : question.ByTags) :
    Lockstep first second exact outer Eq (liftM (onCursor question)) (liftM (onCursor question))
  /-- A failure. -/
  | throw {α : Type} {agree : α → α → Prop} {error other : ParseError}
      (alike : exact → error.SameButPlace other) :
    Lockstep first second exact outer agree (MonadExcept.throw error) (MonadExcept.throw other)
  /-- A report without a failure. -/
  | report {error other : ParseError} (alike : exact → error.SameButPlace other) :
    Lockstep first second exact outer (fun _ _ => True) (liftM (first.report error))
      (liftM (second.report other))
  /-- A reading one level deeper that is no statement. -/
  | deeper {request : Request} (nested : request ≠ .statement) :
    Lockstep first second exact outer (Same exact) (first.deeper request) (second.deeper request)
  /-- A body, up to tokens that close or divide bodies. -/
  | body {terminators : TagSet} (closes : terminators.union .bodyEnd = .bodyEnd) :
    Lockstep first second exact outer (Same exact) (liftM (first.body terminators))
      (liftM (second.body terminators))
  /-- The members of a class. -/
  | classBody (isOuter : outer) : Lockstep first second exact outer (SameItems exact)
      (liftM first.classBody) (liftM second.classBody)
  /-- A loop. -/
  | loop {α : Type} {agree : α → α → Prop} {left right : α → Parse (ForInStep α)} (count : Nat)
      {start other : α} (starts : agree start other)
      (round : ∀ here there, agree here there →
        Lockstep first second exact outer (RoundsAgree agree) (left here) (right there)) :
    Lockstep first second exact outer agree (repeatWithin left count start)
      (repeatWithin right count other)

namespace Lockstep

variable {α β : Type} {first second : Grammar} {exact outer : Prop} {agree : α → α → Prop}

/-- The answers are changed. -/
theorem map {left right : Parse α} {change rename : α → β} {last : β → β → Prop}
    (reading : Lockstep first second exact outer agree left right)
    (holds : ∀ answer other, agree answer other → last (change answer) (rename other)) :
    Lockstep first second exact outer last (change <$> left) (rename <$> right) := by
  rw [map_eq_pure_bind, map_eq_pure_bind]
  exact .bind reading fun answer other same => .pure (holds answer other same)

/-- A choice by the same answer. -/
theorem choose {found : Bool} {left right leftElse rightElse : Parse α}
    (yes : Lockstep first second exact outer agree left right)
    (no : Lockstep first second exact outer agree leftElse rightElse) :
    Lockstep first second exact outer agree (if found = true then left else leftElse)
      (if found = true then right else rightElse) := by
  cases found with
  | true => exact yes
  | false => exact no

/-- Questions about the parser whose answers do not matter. -/
theorem asks {left right : Build α} (here : ∀ parser : Parser, (left parser).2 = parser)
    (there : ∀ parser : Parser, (right parser).2 = parser) :
    Lockstep first second exact outer (fun _ _ => True) (liftM left) (liftM right) := by
  refine .still (fun parser => ⟨_, parser.arena, .refl, .refl _, here parser⟩)
    (fun parser => ⟨_, parser.arena, .refl, .refl _, there parser⟩)
    fun parser other same => ⟨trivial, ?_⟩
  rw [here, there]
  exact same

/-- The current token. -/
theorem current :
    Lockstep first second exact outer
      (fun token other => token.kind.Matches first.soft second.soft exact other.kind)
      (liftM Build.current) (liftM Build.current) := by
  rw [Build.current, liftM_bind]
  exact .bind .cursor fun _ _ alike => .pure alike.1

/-- The current token, before readings that are asked for its kind only. -/
theorem currentKind {leftNext rightNext : Token Name → Parse α}
    (next : ∀ kind other span place, TokenKind.Matches first.soft second.soft exact kind other →
      Lockstep first second exact outer agree (leftNext ⟨kind, span⟩) (rightNext ⟨other, place⟩)) :
    Lockstep first second exact outer agree (liftM Build.current >>= leftNext)
      (liftM Build.current >>= rightNext) :=
  .bind .current fun token other alike => next token.kind other.kind token.span other.span alike

/-- The tag of the current token. -/
theorem currentTag :
    Lockstep first second exact outer Eq (liftM Build.currentTag) (liftM Build.currentTag) := by
  rw [Build.currentTag, liftM_bind]
  exact .bind .current fun _ _ alike => .pure alike.tag

/-- Whether the current token has a tag. -/
theorem check (tag : Tag) :
    Lockstep first second exact outer Eq (liftM (Build.check tag)) (liftM (Build.check tag)) := by
  rw [Build.check, liftM_bind]
  refine .bind .cursor fun here there alike => .pure ?_
  rw [Cursor.check, Cursor.check, Token.tag, Token.tag, alike.1.tag]

/-- A step over the current token if it has a tag. -/
theorem eat (tag : Tag) :
    Lockstep first second exact outer Eq (liftM (Build.eat tag)) (liftM (Build.eat tag)) := by
  rw [Build.eat_eq, liftM_bind]
  refine .bind (.check tag) fun found other same => ?_
  subst same
  cases found with
  | true =>
    rw [if_pos rfl, liftM_bind]
    exact .bind .advance fun _ _ _ => .pure rfl
  | false =>
    rw [if_neg Bool.false_ne_true]
    exact .pure rfl

/-- The error of finding the current token. -/
theorem unexpected (code : ErrorCode) (expected : TagSet) :
    Lockstep first second exact outer (fun error other => exact → error.SameButPlace other)
      (liftM (Build.unexpected code expected)) (liftM (Build.unexpected code expected)) := by
  rw [Build.unexpected, liftM_bind]
  refine .bind .current fun token other alike => .pure fun _ => ?_
  exact ⟨rfl, rfl, rfl, congrArg some alike.tag, rfl, rfl⟩

/-- A failure at the current token. -/
theorem fail {code : ErrorCode} {expected : TagSet} {dress change : ParseError → ParseError}
    (keeps : ∀ error other : ParseError, error.SameButPlace other →
      (dress error).SameButPlace (change other)) :
    Lockstep first second exact outer agree
      (liftM (Build.unexpected code expected) >>= fun error => MonadExcept.throw (dress error))
      (liftM (Build.unexpected code expected) >>= fun error => MonadExcept.throw (change error)) :=
  .bind (unexpected code expected) fun error other alike =>
    .throw fun isExact => keeps error other (alike isExact)

/-- A failure at the current token, before other readings. -/
theorem failFirst {code : ErrorCode} {expected : TagSet} {dress change : ParseError → ParseError}
    {leftNext rightNext : β → Parse α}
    (keeps : ∀ error other : ParseError, error.SameButPlace other →
      (dress error).SameButPlace (change other)) :
    Lockstep first second exact outer agree
      (liftM (Build.unexpected code expected) >>= fun error =>
        MonadExcept.throw (dress error) >>= leftNext)
      (liftM (Build.unexpected code expected) >>= fun error =>
        MonadExcept.throw (change error) >>= rightNext) :=
  fail keeps

/-- A failure before other readings. -/
theorem throwFirst {error other : ParseError} {leftNext rightNext : β → Parse α}
    (alike : exact → error.SameButPlace other) :
    Lockstep first second exact outer agree (MonadExcept.throw error >>= leftNext)
      (MonadExcept.throw other >>= rightNext) :=
  .throw alike

/-- A step of the arena. -/
theorem onArena {left right : Arena → α × Arena}
    (leftGains : ∀ arena : Arena, arena.Gains (left arena).2)
    (rightGains : ∀ arena : Arena, arena.Gains (right arena).2)
    (agrees : exact → ∀ arena other : Arena, arena.SameKinds other →
      agree (left arena).1 (right other).1 ∧ (left arena).2.SameKinds (right other).2)
    (inexact : ¬exact → ∀ answer other, agree answer other) :
    Lockstep first second exact outer agree (liftM (Build.onArena left))
      (liftM (Build.onArena right)) := by
  refine .still (isStill_onArena leftGains) (isStill_onArena rightGains) fun here there tables => ?_
  by_cases isExact : exact
  · obtain ⟨names, arena⟩ := tables isExact
    obtain ⟨answers, arenas⟩ := agrees isExact _ _ arena
    exact ⟨answers, fun _ => ⟨names, arenas⟩⟩
  · exact ⟨inexact isExact _ _, fun holds => absurd holds isExact⟩

/-- A new node. -/
theorem addNode {kind other : NodeKind} (same : SameNode exact kind other) (span place : Span) :
    Lockstep first second exact outer (Same exact) (liftM (Build.addNode kind span))
      (liftM (Build.addNode other place)) := by
  refine .onArena (fun arena => arena.gains_add same.plain span)
    (fun arena => arena.gains_add same.plainOther place) (fun isExact arena others alike => ?_)
    fun inexact _ _ => (absurd · inexact)
  obtain rfl := same.same isExact
  exact ⟨fun _ => (alike.add kind span place).1, (alike.add kind span place).2⟩

/-- A new list of children. -/
theorem addList {ids others : Array NodeId} (same : Same exact ids others) :
    Lockstep first second exact outer (Same exact) (liftM (Build.addList ids))
      (liftM (Build.addList others)) := by
  refine .onArena (fun arena => arena.gains_addList _) (fun arena => arena.gains_addList _)
    (fun isExact arena others alike => ?_) fun inexact _ _ => (absurd · inexact)
  obtain rfl := same isExact
  exact ⟨fun _ => (alike.addList ids.toList).1, (alike.addList ids.toList).2⟩

/-- A new list of names. -/
theorem addNames {names others : Array Name} (same : Same exact names others) :
    Lockstep first second exact outer (Same exact) (liftM (Build.addNames names))
      (liftM (Build.addNames others)) := by
  refine .onArena (fun arena => arena.gains_addNames _) (fun arena => arena.gains_addNames _)
    (fun isExact arena others alike => ?_) fun inexact _ _ => (absurd · inexact)
  obtain rfl := same isExact
  exact ⟨fun _ => (alike.addNames names.toList).1, (alike.addNames names.toList).2⟩

/-- A new node over everything from a place to what was consumed last. -/
theorem close {kind other : NodeKind} (same : SameNode exact kind other) (start place : Span) :
    Lockstep first second exact outer (Same exact) (liftM (Build.close kind start))
      (liftM (Build.close other place)) := by
  rw [Build.close, Build.close, liftM_bind, liftM_bind]
  exact .bind (.asks (fun _ => rfl) fun _ => rfl) fun span other _ => .addNode same span other

/-- A node of a single token. -/
theorem leaf {kind other : NodeKind} (same : SameNode exact kind other) :
    Lockstep first second exact outer (Same exact) (liftM (Build.leaf kind))
      (liftM (Build.leaf other)) := by
  rw [Build.leaf, Build.leaf, liftM_bind, liftM_bind]
  exact .bind .advance fun _ _ _ => .addNode same _ _

/-- An interned text. -/
theorem intern {text other : String} (same : Same exact text other) :
    Lockstep first second exact outer (Same exact) (liftM (Build.intern text))
      (liftM (Build.intern other)) := by
  refine .still (isStill_intern text) (isStill_intern other) fun here there tables => ?_
  by_cases isExact : exact
  · obtain ⟨names, arena⟩ := tables isExact
    obtain rfl := same isExact
    have name : (Build.intern text here).1 = (Build.intern text there).1 :=
      congrArg (fun table : NameTable => (table.intern text).1) names
    have table : (Build.intern text here).2.cursor.lexer.names =
      (Build.intern text there).2.cursor.lexer.names :=
        congrArg (fun table : NameTable => (table.intern text).2) names
    exact ⟨fun _ => name, fun _ => ⟨table, arena⟩⟩
  · exact ⟨fun holds => absurd holds isExact, fun holds => absurd holds isExact⟩

/-- The span of a node. -/
theorem nodeSpan (id other : NodeId) :
    Lockstep first second exact outer (fun _ _ => True) (liftM (Build.nodeSpan id))
      (liftM (Build.nodeSpan other)) :=
  .asks (fun _ => rfl) fun _ => rfl

/-- The type that an identifier names. -/
theorem namedType {name other : Name} (same : Same exact name other) :
    Lockstep first second exact outer (Same exact) (liftM (Grammar.namedType name))
      (liftM (Grammar.namedType other)) := by
  have still (name : Name) : IsStill (Grammar.namedType name) := by
    refine .bind (fun parser => ⟨_, parser.arena, .refl, .refl _, rfl⟩) fun cursor => ?_
    dsimp only
    split
    · split
      · exact .pure _
      · exact .bind (isStill_intern _) fun _ => .pure _
    · exact .pure _
  by_cases isExact : exact
  · obtain rfl := same isExact
    rw [Grammar.namedType, liftM_bind]
    refine .bind .cursor fun here there alike => ?_
    obtain ⟨_, names⟩ := alike
    have text : here.nameText name = there.nameText name := by
      rw [Cursor.nameText, Cursor.nameText, names isExact]
    dsimp only
    rw [text]
    split
    · split
      · exact .pure fun _ => rfl
      · rw [liftM_bind]
        exact .bind (.intern fun _ => rfl) fun _ _ same => .pure fun isExact => by rw [same isExact]
    · exact .pure fun _ => rfl
  · exact .still (still name) (still other)
      fun _ _ _ => ⟨fun holds => absurd holds isExact, fun holds => absurd holds isExact⟩

/-- A step over a token with a tag. -/
theorem expectWith (code : ErrorCode) (tag : Tag) (construct : Construct) :
    Lockstep first second exact outer
      (fun token other => token.kind.Matches first.soft second.soft exact other.kind)
      (Parse.expectWith code tag construct) (Parse.expectWith code tag construct) := by
  refine .bind (.check tag) fun found other same => ?_
  subst same
  exact .choose .advance (.fail fun _ _ alike => { alike with construct := rfl })

/-- A step over a token with a tag. -/
theorem expect (tag : Tag) (construct : Construct) :
    Lockstep first second exact outer
      (fun token other => token.kind.Matches first.soft second.soft exact other.kind)
      (Parse.expect tag construct) (Parse.expect tag construct) :=
  .expectWith _ tag construct

/-- A step over an identifier. -/
theorem expectIdentifier (construct : Construct) :
    Lockstep first second exact outer (fun named other => Same exact named.1 other.1)
      (Parse.expectIdentifier construct) (Parse.expectIdentifier construct) := by
  refine .currentKind fun kind other span place alike => ?_
  obtain ⟨⟨rename, rfl⟩, same, _⟩ := alike
  cases kind with
  | identifier name =>
    exact .bind .advance fun _ _ _ => .pure fun isExact => TokenKind.identifier.inj (same isExact)
  | _ => exact .fail fun _ _ alike => { alike with construct := rfl }

/-- A step over a constant. -/
theorem expectConstant (construct : Construct) :
    Lockstep first second exact outer (Same exact) (Parse.expectConstant construct)
      (Parse.expectConstant construct) := by
  refine .currentKind fun kind other span place alike => ?_
  obtain ⟨⟨rename, rfl⟩, same, _⟩ := alike
  cases kind with
  | constant name =>
    exact .bind .advance fun _ _ _ => .pure fun isExact => TokenKind.constant.inj (same isExact)
  | _ => exact .fail fun _ _ alike => { alike with construct := rfl }

/-- A step over the `end` of a block. -/
theorem expectEnd (opener : Tag) (span place : Span) (construct : Construct) :
    Lockstep first second exact outer (fun _ _ => True) (Parse.expectEnd opener span construct)
      (Parse.expectEnd opener place construct) := by
  refine .bind (.check .kwEnd) fun found other same => ?_
  subst same
  refine .choose (.bind .advance fun _ _ _ => .pure trivial) (.fail fun _ _ alike => ?_)
  exact { alike with fault := rfl, construct := rfl, related := rfl }

/-- The closing bracket of a list. -/
theorem expectCloser (code : ErrorCode) (closer : Tag) (construct : Construct) :
    Lockstep first second exact outer (fun _ _ => True) (Grammar.expectCloser code closer construct)
      (Grammar.expectCloser code closer construct) := by
  refine .bind (.eat closer) fun found other same => ?_
  subst same
  cases found with
  | true => exact .pure trivial
  | false => exact .fail fun _ _ alike => { alike with construct := rfl }

end Lockstep

end Grammar

end Vibescript
