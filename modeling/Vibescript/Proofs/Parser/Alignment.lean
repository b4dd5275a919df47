import Vibescript.Proofs.Parser.Abreast
import Vibescript.Proofs.Parser.Levels

/-!
# Parsers of texts with the same layout

Two parsers are aligned when their cursors are, their nodes differ in spans only, and so do the
errors that they recorded. Readings in lockstep keep them aligned, the rounds of a body and of the
members of a class do so as well, and with them every level of the grammar.
-/
namespace Vibescript

/-- Two parsers differ in spans and in the layout of their texts only. -/
structure Parser.Aligned (left right : Parser) : Prop where
  /-- The cursors are aligned. -/
  cursor : left.cursor.Aligned right.cursor
  /-- The nodes differ in their spans only. -/
  arena : left.arena.SameKinds right.arena
  /-- The errors differ in places only. -/
  errors : List.Forall₂ ParseError.SameButPlace left.errors.toList right.errors.toList
  /-- Both parsers are halted, or none is. -/
  isHalted : left.isHalted = right.isHalted

namespace Parser.Aligned

variable {left right : Parser}

/-- Aligned parsers have the same names, and nodes that differ in their spans only. -/
theorem tables (aligned : left.Aligned right) : left.SameTables right :=
  ⟨aligned.cursor.names, aligned.arena⟩

/-- Parsers stay aligned when their cursors do. -/
theorem withCursor (aligned : left.Aligned right) {first second : Cursor}
    (cursor : first.Aligned second) :
    (left.withCursor first).Aligned (right.withCursor second) :=
  ⟨cursor, aligned.arena, aligned.errors, aligned.isHalted⟩

/-- Parsers stay aligned when they intern the same names and add the same kinds of node. -/
theorem withTables (aligned : left.Aligned right) {names others : NameTable} {arena nodes : Arena}
    (interns : left.cursor.lexer.names.Interns names)
    (same : (left.withTables names arena).SameTables (right.withTables others nodes)) :
    (left.withTables names arena).Aligned (right.withTables others nodes) := by
  obtain ⟨sameNames, sameNodes⟩ := same
  obtain rfl : names = others := sameNames
  exact ⟨aligned.cursor.intern interns, sameNodes, aligned.errors, aligned.isHalted⟩

end Parser.Aligned

/-- Two results agree: both readings succeed with answers that agree, or both fail with errors that
differ in places only. -/
inductive Parse.ResultsAgree {α : Type} (agree : α → α → Prop) :
    Except ParseError α → Except ParseError α → Prop
  /-- Both succeed. -/
  | ok {answer other : α} (agrees : agree answer other) : ResultsAgree agree (.ok answer) (.ok other)
  /-- Both fail. -/
  | error {error other : ParseError} (alike : error.SameButPlace other) :
    ResultsAgree agree (.error error) (.error other)

/-- From aligned parsers, two steps have answers that agree and keep the parsers aligned. -/
def Build.Keeps {α : Type} (agree : α → α → Prop) (left right : Build α) : Prop :=
  ∀ here there : Parser, here.Aligned there →
    agree (left here).1 (right there).1 ∧ (left here).2.Aligned (right there).2

/-- From aligned parsers, two readings have results that agree and keep the parsers aligned. -/
def Parse.Keeps {α : Type} (agree : α → α → Prop) (left right : Parse α) : Prop :=
  Build.Keeps (ResultsAgree agree) left.run right.run

namespace Build.Keeps

variable {α β : Type} {between : α → α → Prop} {agree : β → β → Prop} {left right : Build α}
  {leftNext rightNext : α → Build β}

/-- An answer. -/
theorem pure {answer other : β} (agrees : agree answer other) :
    Keeps agree (Pure.pure answer) (Pure.pure other) :=
  fun _ _ aligned => ⟨agrees, aligned⟩

/-- One step after another. -/
theorem bind (step : Keeps between left right)
    (next : ∀ answer other, between answer other → Keeps agree (leftNext answer) (rightNext other)) :
    Keeps agree (left >>= leftNext) (right >>= rightNext) := by
  intro here there aligned
  obtain ⟨agrees, kept⟩ := step here there aligned
  exact next _ _ agrees _ _ kept

/-- Less is known of the answers. -/
theorem mono {weaker : α → α → Prop} (step : Keeps between left right)
    (weakens : ∀ answer other, between answer other → weaker answer other) :
    Keeps weaker left right :=
  fun here there aligned => (step here there aligned).imp_left (weakens _ _)

/-- A step of the cursor. -/
theorem onCursor {step other : Cursor → α × Cursor}
    (keeps : ∀ here there : Cursor, here.Aligned there → between (step here).1 (other there).1 ∧
      (step here).2.Aligned (other there).2) :
    Keeps between (Build.onCursor step) (Build.onCursor other) := by
  intro here there aligned
  obtain ⟨agrees, kept⟩ := keeps _ _ aligned.cursor
  exact ⟨agrees, aligned.withCursor kept⟩

/-- A step that interns names and builds nodes. -/
theorem still (leftStill : left.IsStill) (rightStill : right.IsStill)
    (agrees : ∀ here there : Parser, here.SameTables there →
      between (left here).1 (right there).1 ∧ (left here).2.SameTables (right there).2) :
    Keeps between left right := by
  intro here there aligned
  obtain ⟨answers, tables⟩ := agrees here there aligned.tables
  obtain ⟨names, arena, interns, _, ends⟩ := leftStill here
  obtain ⟨others, nodes, _, _, endsOther⟩ := rightStill there
  rw [ends, endsOther] at tables ⊢
  exact ⟨answers, aligned.withTables interns tables⟩

/-- A report. -/
theorem report {first second : Grammar} (recovery : first.options.recovery = second.options.recovery)
    {error other : ParseError} (alike : error.SameButPlace other) :
    Keeps (fun _ _ => True) (first.report error) (second.report other) := by
  intro here there aligned
  refine ⟨trivial, ?_⟩
  show (if here.isHalted = true then here else _ : Parser).Aligned
    (if there.isHalted = true then there else _ : Parser)
  rw [← aligned.isHalted]
  split
  · exact aligned
  · refine ⟨aligned.cursor, aligned.arena, ?_, ?_⟩
    · simp only [Array.toList_push]
      exact List.rel_append aligned.errors (.cons alike .nil)
    · rw [recovery, alike.code]

/-- The cursor. -/
theorem cursor : Keeps Cursor.Aligned Build.cursor Build.cursor :=
  fun _ _ aligned => ⟨aligned.cursor, aligned⟩

/-- The tag of the current token. -/
theorem currentTag : Keeps Eq Build.currentTag Build.currentTag :=
  fun _ _ aligned => ⟨congrArg TokenKind.tag aligned.cursor.current, aligned⟩

/-- The present place. -/
theorem checkpoint : Keeps (fun here there : Grammar.Checkpoint =>
    here.position = there.position ∧ here.mark = there.mark) Grammar.checkpoint
      Grammar.checkpoint :=
  fun _ _ aligned => ⟨⟨aligned.cursor.position, aligned.arena.mark⟩, aligned⟩

/-- A step to the next token. -/
theorem advance :
    Keeps (fun token other : Token Name => token.kind = other.kind) Build.advance Build.advance :=
  .onCursor fun _ _ aligned => aligned.advance

/-- The current token. -/
theorem current :
    Keeps (fun token other : Token Name => token.kind = other.kind) Build.current Build.current :=
  fun _ _ aligned => ⟨aligned.cursor.current, aligned⟩

/-- A step of the cursor whose answer does not matter. -/
theorem moveCursor {step other : Cursor → α × Cursor}
    (keeps : ∀ here there : Cursor, here.Aligned there → (step here).2.Aligned (other there).2) :
    Keeps (fun _ _ => True) (Build.onCursor step) (Build.onCursor other) :=
  .onCursor fun here there aligned => ⟨trivial, keeps here there aligned⟩

/-- A new node. -/
theorem addNode (kind : NodeKind) (span place : Span) :
    Keeps Eq (Build.addNode kind span) (Build.addNode kind place) := by
  intro here there aligned
  obtain ⟨same, nodes⟩ := aligned.arena.add kind span place
  exact ⟨same, aligned.cursor, nodes, aligned.errors, aligned.isHalted⟩

/-- A new list of children. -/
theorem addList (ids : Array NodeId) : Keeps Eq (Build.addList ids) (Build.addList ids) := by
  intro here there aligned
  obtain ⟨same, nodes⟩ := aligned.arena.addList ids.toList
  exact ⟨same, aligned.cursor, nodes, aligned.errors, aligned.isHalted⟩

/-- A new list of names. -/
theorem addNames (names : Array Name) : Keeps Eq (Build.addNames names) (Build.addNames names) := by
  intro here there aligned
  obtain ⟨same, nodes⟩ := aligned.arena.addNames names.toList
  exact ⟨same, aligned.cursor, nodes, aligned.errors, aligned.isHalted⟩

/-- Interning a text. -/
theorem intern (text : String) : Keeps Eq (Build.intern text) (Build.intern text) := by
  refine .still (isStill_intern text) (isStill_intern text) fun here there tables => ?_
  have name : (Build.intern text here).1 = (Build.intern text there).1 :=
    congrArg (fun table : NameTable => (table.intern text).1) tables.names
  have table : (Build.intern text here).2.cursor.lexer.names =
    (Build.intern text there).2.cursor.lexer.names :=
      congrArg (fun table : NameTable => (table.intern text).2) tables.names
  exact ⟨name, table, tables.arena⟩

/-- Interning texts. -/
theorem internAll (texts : List String) :
    Keeps Eq (texts.mapM Build.intern) (texts.mapM Build.intern) := by
  induction texts with
  | nil => exact .pure rfl
  | cons text texts ih =>
    rw [List.mapM_cons]
    refine .bind (.intern text) fun name _ same => .bind ih fun names _ sameNames => .pure ?_
    rw [same, sameNames]

/-- A failed construct is given up. -/
theorem abandon (start other : Span) (position : Nat) (mark : ArenaMark) :
    Keeps Eq (Grammar.abandon ⟨start, position, mark⟩) (Grammar.abandon ⟨other, position, mark⟩) := by
  have truncates : Keeps (fun _ _ => True)
      (Build.onArena fun arena => ((), arena.truncate mark))
      (Build.onArena fun arena => ((), arena.truncate mark)) := fun here there aligned =>
    ⟨trivial, aligned.cursor, aligned.arena.truncate mark, aligned.errors, aligned.isHalted⟩
  have spans : Keeps (fun _ _ => True) (spanFrom start) (spanFrom other) :=
    fun _ _ aligned => ⟨trivial, aligned⟩
  have ends : Keeps Eq
      (do
        Build.onArena fun arena => ((), arena.truncate mark)
        let span ← if (← Build.cursor).position == position then
          Pure.pure (Span.point start.start) else spanFrom start
        Build.addNode .error span)
      (do
        Build.onArena fun arena => ((), arena.truncate mark)
        let span ← if (← Build.cursor).position == position then
          Pure.pure (Span.point other.start) else spanFrom other
        Build.addNode .error span) := by
    refine .bind truncates fun _ _ _ => .bind .cursor fun here there aligned => ?_
    rw [← aligned.position]
    dsimp only
    split
    · rw [pure_bind, pure_bind]
      exact .addNode _ _ _
    · exact .bind spans fun _ _ _ => .addNode _ _ _
  refine .bind .cursor fun here there aligned => ?_
  rw [← aligned.position, ← aligned.isAtEnd]
  dsimp only
  split
  · exact .bind .advance fun _ _ _ => ends
  · exact ends

/-- A loop. -/
theorem repeatWithin {left right : α → Build (ForInStep α)}
    (round : ∀ here there, between here there →
      Keeps (Grammar.RoundsAgree between) (left here) (right there))
    (count : Nat) {start other : α} (starts : between start other) :
    Keeps between (Grammar.repeatWithin left count start)
      (Grammar.repeatWithin right count other) := by
  induction count generalizing start other with
  | zero => exact .pure starts
  | succ count ih =>
    refine .bind (round _ _ starts) fun answer other agrees => ?_
    cases agrees with
    | done agrees => exact .pure agrees
    | yield agrees => exact ih agrees

end Build.Keeps

namespace Parse.Keeps

variable {α β : Type} {between : α → α → Prop} {agree : β → β → Prop} {left right : Parse α}
  {leftNext rightNext : α → Parse β}

/-- An answer. -/
theorem pure {answer other : β} (agrees : agree answer other) :
    Keeps agree (Pure.pure answer) (Pure.pure other) :=
  Build.Keeps.pure (.ok agrees)

/-- A failure. -/
theorem throw {error other : ParseError} (alike : error.SameButPlace other) :
    Keeps agree (MonadExcept.throw error) (MonadExcept.throw other) :=
  Build.Keeps.pure (.error alike)

/-- One reading after another. -/
theorem bind (reading : Keeps between left right)
    (next : ∀ answer other, between answer other → Keeps agree (leftNext answer) (rightNext other)) :
    Keeps agree (left >>= leftNext) (right >>= rightNext) := by
  rw [Keeps, ExceptT.run_bind, ExceptT.run_bind]
  refine Build.Keeps.bind reading fun result other agrees => ?_
  cases agrees with
  | ok agrees => exact next _ _ agrees
  | error alike => exact .pure (.error alike)

/-- Less is known of the answers. -/
theorem mono {weaker : α → α → Prop} (reading : Keeps between left right)
    (weakens : ∀ answer other, between answer other → weaker answer other) :
    Keeps weaker left right := by
  refine Build.Keeps.mono reading fun result other agrees => ?_
  cases agrees with
  | ok agrees => exact .ok (weakens _ _ agrees)
  | error alike => exact .error alike

/-- A step, which cannot fail. -/
theorem lift {left right : Build α} (step : Build.Keeps between left right) :
    Keeps between (liftM left) (liftM right) :=
  Build.Keeps.bind step fun _ _ agrees => .pure (.ok agrees)

/-- A loop. -/
theorem repeatWithin {left right : α → Parse (ForInStep α)}
    (round : ∀ here there, between here there →
      Keeps (Grammar.RoundsAgree between) (left here) (right there))
    (count : Nat) {start other : α} (starts : between start other) :
    Keeps between (Grammar.repeatWithin left count start)
      (Grammar.repeatWithin right count other) := by
  induction count generalizing start other with
  | zero => exact .pure starts
  | succ count ih =>
    refine .bind (round _ _ starts) fun answer other agrees => ?_
    cases agrees with
    | done agrees => exact .pure agrees
    | yield agrees => exact ih agrees

end Parse.Keeps

namespace Grammar

/-- Two grammars that recover from errors, with the same names and rounds, keep parsers aligned one
level deeper. -/
structure Matched (first second : Grammar) : Prop where
  /-- The words that mean something in some places only. -/
  soft : first.soft = second.soft
  /-- The bound on the rounds of a loop. -/
  rounds : first.rounds = second.rounds
  /-- The first recovers from errors. -/
  firstRecovers : first.options.recovery = .recover
  /-- The second recovers from errors. -/
  secondRecovers : second.options.recovery = .recover
  /-- What is one level deeper. -/
  deeper : ∀ request, Parse.Keeps Eq (first.deeper request) (second.deeper request)

namespace Matched

open Build

variable {first second : Grammar} {outer : Prop}

variable (matched : Matched first second)

include matched

/-- Whether to stop reading. -/
theorem shouldHalt : Build.Keeps Eq first.shouldHalt second.shouldHalt := by
  intro here there aligned
  refine ⟨?_, aligned⟩
  show (here.isHalted || (first.options.recovery == .failFast && here.cursor.hasLexicalErrors)) =
    (there.isHalted || (second.options.recovery == .failFast && there.cursor.hasLexicalErrors))
  rw [matched.firstRecovers, matched.secondRecovers, aligned.isHalted]
  rfl

/-- A report. -/
theorem report {error other : ParseError} (alike : error.SameButPlace other) :
    Build.Keeps (fun _ _ => True) (first.report error) (second.report other) :=
  .report (matched.firstRecovers.trans matched.secondRecovers.symm) alike

/-- Readings in lockstep keep parsers aligned, if bodies do, and the readings that are taken for
granted. -/
theorem keeps {α : Type} {agree : α → α → Prop} {left right : Parse α}
    (reading : Lockstep first second True outer agree left right)
    (body : ∀ terminators, Build.Keeps Eq (first.body terminators) (second.body terminators))
    (members : outer → Build.Keeps Eq first.classBody second.classBody) :
    Parse.Keeps agree left right := by
  have soft := matched.soft
  induction reading with
  | pure agrees => exact .pure agrees
  | bind _ _ ih ihNext => exact .bind ih ihNext
  | imp _ weakens ih => exact ih.mono weakens
  | cursor =>
    refine .lift fun here there aligned => ⟨⟨?_, fun _ => aligned.cursor.names⟩, aligned⟩
    show here.cursor.current.kind.Matches _ _ _ there.cursor.current.kind
    rw [soft, aligned.cursor.current]
    exact .refl _ _ _
  | still leftStill rightStill agrees =>
    refine .lift (.still leftStill rightStill fun here there tables => ?_)
    obtain ⟨answers, kept⟩ := agrees here there fun _ => tables
    exact ⟨answers, kept trivial⟩
  | advance =>
    refine .lift (Build.Keeps.advance.mono fun token other same => ?_)
    rw [soft, same]
    exact .refl _ _ _
  | splitSymbol => exact .lift (.onCursor fun _ _ aligned => aligned.splitSymbol)
  | ask byTags =>
    exact .lift (.onCursor fun here there aligned =>
      byTags Cursor.Aligned Lookahead.agrees_tag here there aligned)
  | throw alike => exact .throw (alike trivial)
  | report alike => exact .lift (matched.report (alike trivial))
  | @deeper request => exact (matched.deeper request).mono fun _ _ same _ => same
  | @body terminators => exact .lift ((body terminators).mono fun _ _ same _ => same)
  | classBody isOuter =>
    exact .lift ((members isOuter).mono fun _ _ same => ⟨congrArg Array.size same, fun _ => same⟩)
  | loop count starts _ ih => exact .repeatWithin ih count starts

omit matched in
/-- A directive becomes the same node. -/
theorem directive {here there : Parser} (aligned : here.Aligned there) {mark other : Token Name}
    (kind : mark.kind = other.kind)
    (uses : mark.kind = .usesDirective → Directive.usesNames (here.cursor.text mark.span) =
      Directive.usesNames (there.cursor.text other.span)) (directive : mark.kind.isDirective = true) :
    (Grammar.directive mark here).1 = (Grammar.directive other there).1 ∧
      (Grammar.directive mark here).2.Aligned (Grammar.directive other there).2 := by
  obtain ⟨found, span⟩ := mark
  obtain ⟨others, place⟩ := other
  obtain rfl : found = others := kind
  cases found with
  | versionDirective major minor => exact Build.Keeps.addNode _ _ _ here there aligned
  | usesDirective =>
    have declares (names : List String) : Build.Keeps Eq
        (do
          let ids ← names.mapM Build.intern
          let range ← Build.addNames ids.toArray
          Build.addNode (.usesDirective range) span)
        (do
          let ids ← names.mapM Build.intern
          let range ← Build.addNames ids.toArray
          Build.addNode (.usesDirective range) place) := by
      refine .bind (.internAll names) fun ids _ same => ?_
      subst same
      refine .bind (.addNames _) fun range _ same => ?_
      subst same
      exact .addNode _ _ _
    have first := declares (Directive.usesNames (here.cursor.text span)) here there aligned
    have same : Grammar.directive ⟨.usesDirective, place⟩ there =
      (do
        let ids ← (Directive.usesNames (there.cursor.text place)).mapM Build.intern
        let range ← Build.addNames ids.toArray
        Build.addNode (.usesDirective range) place : Build NodeId) there := rfl
    rw [same, ← uses rfl]
    exact first
  | _ => contradiction

omit matched in
/-- A directive is claimed by both parsers, or by none. -/
theorem claim {α : Type} {agree : α → α → Prop} {left right : Option (Token Name) → Build α}
    (claimed : ∀ (mark other : Token Name) (here there : Parser), here.Aligned there →
      mark.kind = other.kind → mark.kind.isDirective = true →
      (mark.kind = .usesDirective → Directive.usesNames (here.cursor.text mark.span) =
        Directive.usesNames (there.cursor.text other.span)) →
      agree (left (some mark) here).1 (right (some other) there).1 ∧
        (left (some mark) here).2.Aligned (right (some other) there).2)
    (none : Build.Keeps agree (left none) (right none)) :
    Build.Keeps agree (Build.onCursor Cursor.takeDirective >>= left)
      (Build.onCursor Cursor.takeDirective >>= right) := by
  intro here there aligned
  have runs (parser : Parser) (next : Option (Token Name) → Build α) :
      (Build.onCursor Cursor.takeDirective >>= next) parser =
        next parser.cursor.takeDirective.1 (parser.withCursor parser.cursor.takeDirective.2) := rfl
  rw [runs, runs]
  rcases aligned.cursor.takeDirective with ⟨isNone, isNoneOther⟩ | ⟨mark, other, taken⟩
  · rw [isNone, isNoneOther]
    exact none here there aligned
  · obtain ⟨isMark, isOther, kind, directive, uses, kept⟩ := taken
    rw [isMark, isOther]
    exact claimed mark other _ _ (aligned.withCursor kept) kind directive uses

omit matched in
/-- All tokens that are left are skipped. -/
theorem skipToEnd : Build.Keeps (fun _ _ => True) Build.skipToEnd Build.skipToEnd :=
  .moveCursor fun _ _ aligned => aligned.skipUntil fun _ _ _ _ => rfl

/-- One round of a body. -/
theorem bodyStep (terminators : TagSet) (statements : Array NodeId) :
    Build.Keeps (RoundsAgree Eq) (first.bodyStep terminators statements)
      (second.bodyStep terminators statements) := by
  refine .bind matched.shouldHalt fun halts _ same => ?_
  subst same
  cases halts with
  | true => exact .bind skipToEnd fun _ _ _ => .pure (.done rfl)
  | false =>
    refine claim ?_ (.bind .currentTag fun tag _ same => ?_)
    · intro mark other here there aligned kind isMark uses
      obtain ⟨same, kept⟩ := directive aligned kind uses isMark
      exact ⟨.yield (congrArg statements.push same), kept⟩
    subst same
    split
    · exact .pure (.done rfl)
    · refine .bind .checkpoint fun start other alike => .bind (matched.deeper .statement)
        fun result others agrees => ?_
      obtain ⟨start, position, mark⟩ := start
      obtain ⟨other, place, others⟩ := other
      obtain ⟨rfl, rfl⟩ : position = place ∧ mark = others := alike
      cases agrees with
      | ok same =>
        subst same
        exact .pure (.yield rfl)
      | error alike =>
        refine .bind (matched.report alike) fun _ _ _ => .bind (.moveCursor fun _ _ aligned =>
          aligned.synchronize _) fun _ _ _ => .bind (.abandon _ _ _ _) fun id _ same =>
            .pure (.yield ?_)
        rw [same]

/-- A body. -/
theorem body (terminators : TagSet) :
    Build.Keeps Eq (first.body terminators) (second.body terminators) := by
  have loop : Build.Keeps Eq (first.loop #[] (first.bodyStep terminators))
      (second.loop #[] (second.bodyStep terminators)) := by
    rw [Grammar.loop, Grammar.loop, matched.rounds]
    refine .repeatWithin (fun here there same => ?_) _ rfl
    subst same
    exact matched.bodyStep terminators here
  refine .bind loop fun statements _ same => ?_
  subst same
  exact .addList statements

/-- One round of a class body. -/
theorem memberStep (members : Array NodeId) :
    Build.Keeps (RoundsAgree Eq) (first.memberStep members) (second.memberStep members) := by
  have member : Parse.Keeps (Same True) first.classMember second.classMember :=
    matched.keeps (Lockstep.classMember matched.rounds) matched.body False.elim
  have starts (token other : Token Name) (same : token.kind = other.kind) :
      first.startsMember token = second.startsMember other := by
    rw [startsMember, startsMember, Token.tag, Token.tag, same, matched.soft]
  refine .bind matched.shouldHalt fun halts _ same => ?_
  subst same
  cases halts with
  | true => exact .bind skipToEnd fun _ _ _ => .pure (.done rfl)
  | false =>
    refine .bind .currentTag fun tag _ same => ?_
    subst same
    split
    · exact .pure (.done rfl)
    · refine .bind .checkpoint fun start other alike => .bind member
        fun result others agrees => ?_
      obtain ⟨start, position, mark⟩ := start
      obtain ⟨other, place, others⟩ := other
      obtain ⟨rfl, rfl⟩ : position = place ∧ mark = others := alike
      cases agrees with
      | ok same => exact .pure (.yield (congrArg members.push (same trivial)))
      | error alike =>
        refine .bind (matched.report alike) fun _ _ _ => .bind (.moveCursor fun _ _ aligned =>
          aligned.skipUntil fun here there same _ => starts _ _ same.current) fun _ _ _ =>
            .bind (.abandon _ _ _ _) fun id _ same => .pure (.yield ?_)
        rw [same]

/-- The members of a class. -/
theorem classBody : Build.Keeps Eq first.classBody second.classBody := by
  rw [Grammar.classBody, Grammar.classBody, Grammar.loop, Grammar.loop, matched.rounds]
  refine .repeatWithin (fun here there same => ?_) _ rfl
  subst same
  exact matched.memberStep here

/-- A statement that no keyword introduces. -/
theorem plainStatement : Parse.Keeps Eq first.plainStatement second.plainStatement := by
  have importing : Parse.Keeps Eq first.requireImport second.requireImport :=
    (matched.keeps (Lockstep.requireImport matched.rounds) matched.body
      False.elim).mono fun _ _ same => same trivial
  have expression := matched.deeper (.expression .assignment)
  have stray : Parse.Keeps (α := NodeId) Eq
      (do
        let error ← Build.unexpected .unexpectedToken .empty
        throw (error.withFault .strayTerminator))
      (do
        let error ← Build.unexpected .unexpectedToken .empty
        throw (error.withFault .strayTerminator)) :=
    matched.keeps (.fail fun _ _ alike => { alike with fault := rfl }) matched.body
      False.elim
  refine .bind (.lift .currentTag) fun tag _ same => ?_
  subst same
  split
  · rw [matched.soft]
    refine .bind (.lift (.onCursor fun _ _ aligned =>
      Lookahead.agrees_startsImport _ _ _ _ aligned)) fun found _ same => ?_
    subst same
    cases found with
    | true => exact importing
    | false => exact expression
  · split
    · exact stray
    · exact expression

/-- A statement. -/
theorem statement : Parse.Keeps Eq first.statement second.statement := by
  rw [statement_eq, statement_eq]
  refine .bind (.lift .currentTag) fun tag _ same => ?_
  subst same
  rcases Lockstep.statementOf matched.rounds trivial tag with ⟨isPlain, isPlainOther⟩ | reading
  · rw [isPlain, isPlainOther]
    exact matched.plainStatement
  · exact (matched.keeps reading matched.body fun _ => matched.classBody).mono
      fun _ _ same => same trivial

/-- Every reading of a level keeps parsers aligned. -/
theorem reading (request : Request) : Parse.Keeps Eq (first.reading request)
    (second.reading request) := by
  cases request with
  | statement => exact matched.statement
  | expression least =>
    exact (matched.keeps (Lockstep.expressionFrom matched.rounds least) matched.body
      False.elim).mono fun _ _ same => same trivial
  | operand =>
    exact (matched.keeps (Lockstep.operand matched.rounds) matched.body
      False.elim).mono fun _ _ same => same trivial

end Matched

/-- Every level of the grammar keeps parsers aligned. -/
theorem matched_level (maxDepth : Nat) (soft : SoftNames) (rounds levels : Nat) :
    Matched (level ⟨maxDepth, .recover⟩ soft rounds levels)
      (level ⟨maxDepth, .recover⟩ soft rounds levels) := by
  refine ⟨rfl, rfl, rfl, rfl, fun request => ?_⟩
  induction levels generalizing request with
  | zero =>
    refine .bind (.lift .current) fun here there _ => ?_
    exact .bind (.lift Matched.skipToEnd) fun _ _ _ => .throw ⟨rfl, rfl, rfl, rfl, rfl, rfl⟩
  | succ levels ih =>
    show Parse.Keeps Eq (descend _ soft rounds (levels + 1) request)
      (descend _ soft rounds (levels + 1) request)
    rw [descend_succ]
    exact Matched.reading ⟨rfl, rfl, rfl, rfl, ih⟩ request

/-- Reading a program keeps parsers aligned. -/
theorem Matched.program {first second : Grammar} (matched : Matched first second) :
    Build.Keeps Eq first.program second.program := by
  refine .bind (matched.body .empty) fun body _ same => .bind .cursor fun here there _ => ?_
  subst same
  exact .addNode _ _ _

end Grammar

end Vibescript
