import Mathlib.Data.List.TakeWhile
import Vibescript.Proofs.Cursor.Transparency
import Vibescript.Proofs.Source.Recorded

/-!
# What becomes of directives

A directive that the lexer hands out waits in the queue of the cursor. It leaves the queue in one of
two ways: a statement position claims it, or the cursor steps over it and makes it a comment. So at
every moment the directives of the text that was read are those that were claimed, those that were
stepped over and those that wait, each once. What is claimed lies between what was taken last and
the current token, however far the cursor has looked ahead, and at the end everything that was not
claimed is among the comments.
-/
namespace Vibescript

namespace Token

/-- The comment that a directive is, where nothing claims it. -/
def comment (source : List Char) (directive : Token String) : Comment :=
  ⟨directive.span, String.ofList (Text.slice source directive.span)⟩

/-- A directive carries no name, so every table writes it the same. -/
theorem written_directive {token : Token Name} (directive : token.kind.isDirective = true)
    (names others : NameTable) : token.written names = token.written others := by
  obtain ⟨kind, span⟩ := token
  cases kind with
  | versionDirective major minor => rfl
  | usesDirective => rfl
  | _ => exact Bool.noConfusion directive

/-- Directives are written the same by every table. -/
theorem map_written_directive {tokens : List (Token Name)}
    (directive : ∀ token ∈ tokens, token.kind.isDirective = true) (names others : NameTable) :
    tokens.map (written names) = tokens.map (written others) :=
  List.map_congr_left fun token member => written_directive (directive token member) names others

/-- Tokens in a line are different from each other. -/
theorem InLine.nodup {source : List Char} {tokens : List (Token String)}
    (line : InLine source tokens) : tokens.Nodup := by
  refine line.ordered.imp fun {left right} precedes same => ?_
  rw [same] at precedes
  exact Nat.lt_irrefl _ precedes.2

end Token

namespace Cursor

/-- The directives that wait, written out. -/
def waiting (cursor : Cursor) : List (Token String) :=
  cursor.directives.map (Token.written cursor.lexer.names)

/-- The directive that an operation claims, if it claims one. -/
def Effect.claimed (effect : Effect) : List (Token String) :=
  match effect.answer with
  | .claim directive => directive.toList
  | _ => []

/-- What the lexer goes through when a cursor pulls a token out of some pieces of the text. -/
structure Draws (before : Lexer) (pieces drawn : List Piece) (marks : List (Token Name))
    (after : Lexer) : Prop where
  /-- The first of the pieces were read. -/
  pieces : pieces = drawn ++ after.pieces
  /-- The text stays. -/
  source : after.source = before.source
  /-- The comments among them were recorded. -/
  comments : after.comments.toList = before.comments.toList ++ drawn.filterMap Piece.comment?
  /-- What comes before the token is directives. -/
  directive : ∀ mark ∈ marks, mark.kind.isDirective = true
  /-- They are the directives that were read. -/
  marks : Token.directives (Piece.tokens drawn) = marks.map (Token.written after.names)

/-- Pulling a token reads the pieces up to it. -/
theorem draws_pullIn (lexer : Lexer) (pieces : List Piece) :
    ∃ drawn, Draws lexer pieces drawn (pullIn lexer pieces).2.1 (pullIn lexer pieces).2.2 := by
  induction pieces generalizing lexer with
  | nil => exact ⟨[], rfl, rfl, (List.append_nil _).symm, List.forall_mem_nil _, rfl⟩
  | cons piece rest ih =>
    have passed : (lexer.pass piece rest).comments.toList =
        lexer.comments.toList ++ [piece].filterMap Piece.comment? := by
      have recorded := lexer.remarks_pass piece rest
      rw [Lexer.remarks, ← List.singleton_append, List.filterMap_append, ← List.append_assoc]
        at recorded
      exact List.append_cancel_right recorded
    cases isKind : piece.kind? with
    | none =>
      rw [pullIn_none lexer rest isKind]
      obtain ⟨drawn, draws⟩ := ih (lexer.pass piece rest)
      refine ⟨piece :: drawn, congrArg (piece :: ·) draws.pieces, draws.source, ?_,
        draws.directive, ?_⟩
      · rw [draws.comments, passed, List.append_assoc, ← List.filterMap_append]
        rfl
      · rw [← draws.marks, Piece.tokens_skip isKind]
    | some kind =>
      rw [pullIn_some lexer rest isKind]
      have first : Piece.tokens [piece] = [⟨kind, piece.span⟩] := Piece.tokens_cons isKind []
      by_cases directive : (kind.intern lexer.names).1.isDirective = true
      · rw [if_pos directive]
        obtain ⟨drawn, draws⟩ :=
          ih { lexer.pass piece rest with names := (kind.intern lexer.names).2 }
        have isDirective : kind.isDirective = true := by
          rwa [TokenKind.isDirective_intern] at directive
        have written (names : NameTable) : Token.written names
            ⟨(kind.intern lexer.names).1, piece.span⟩ = ⟨kind, piece.span⟩ := by
          cases kind with
          | versionDirective major minor => rfl
          | usesDirective => rfl
          | _ => exact Bool.noConfusion isDirective
        refine ⟨piece :: drawn, congrArg (piece :: ·) draws.pieces, draws.source, ?_, ?_, ?_⟩
        · rw [draws.comments, passed, List.append_assoc, ← List.filterMap_append]
          rfl
        · exact List.forall_mem_cons.mpr ⟨directive, draws.directive⟩
        · rw [List.map_cons, ← draws.marks, written, ← List.singleton_append (l := drawn),
            Piece.tokens, List.filterMap_append, Token.directives_append]
          exact congrArg (· ++ _) ((congrArg Token.directives first).trans
            (Token.directives_eq_self (List.forall_mem_singleton.mpr isDirective)))
      · rw [if_neg directive]
        rw [TokenKind.isDirective_intern] at directive
        refine ⟨[piece], rfl, rfl, passed, List.forall_mem_nil _, ?_⟩
        rw [first]
        exact Token.directives_cons (eq_false_of_ne_true directive) []

/-- Where the directives of the text are, after some of its pieces were read: some were claimed,
others were stepped over, and the rest waits. -/
structure Sorts (source : List Char) (read : List Piece) (claimed stepped : List (Token String))
    (cursor : Cursor) : Prop where
  /-- The cursor stands in the text. -/
  isSource : cursor.source = source
  /-- The other pieces are still to be read. -/
  pieces : Piece.list source = read ++ cursor.lexer.pieces
  /-- The comments among the pieces were recorded. -/
  comments : cursor.lexer.comments.toList = read.filterMap Piece.comment?
  /-- What was stepped over became comments. -/
  demoted : cursor.demoted.toList = stepped.map (Token.comment source)
  /-- Only directives wait. -/
  directive : ∀ mark ∈ cursor.directives, mark.kind.isDirective = true
  /-- Each directive that was read is in one place. -/
  each : (claimed ++ stepped ++ cursor.waiting).Perm (Token.directives (Piece.tokens read))

namespace Sorts

variable {source : List Char} {read : List Piece} {claimed stepped : List (Token String)}
  {cursor : Cursor}

/-- Nothing was claimed or stepped over at the start. -/
theorem start (source : String) :
    ∃ read, Sorts source.toList read [] [] (Cursor.ofSource source) := by
  obtain ⟨drawn, draws⟩ :=
    draws_pullIn (Lexer.ofSource source) (Lexer.ofSource source).pieces
  refine ⟨drawn, draws.source, draws.pieces, draws.comments, rfl, draws.directive, ?_⟩
  rw [draws.marks]
  exact .refl _

/-- Pulling a token adds the directives before it to those that wait. -/
theorem pull (sorts : Sorts source read claimed stepped cursor) (current : Token Name)
    (ahead : List (Token Name)) (previous : Span) (position : Nat) :
    ∃ drawn, Sorts source (read ++ drawn) claimed stepped
      { lexer := (Cursor.pull cursor.lexer).2.2
        current, ahead
        directives := cursor.directives ++ (Cursor.pull cursor.lexer).2.1
        demoted := cursor.demoted
        previous, position } := by
  obtain ⟨drawn, draws⟩ := draws_pullIn cursor.lexer cursor.lexer.pieces
  refine ⟨drawn, draws.source.trans sorts.isSource, ?_, ?_, sorts.demoted, ?_, ?_⟩
  · rw [List.append_assoc, sorts.pieces]
    exact congrArg (read ++ ·) draws.pieces
  · rw [List.filterMap_append, ← sorts.comments]
    exact draws.comments
  · exact List.forall_mem_append.mpr ⟨sorts.directive, draws.directive⟩
  · rw [Piece.tokens, List.filterMap_append, Token.directives_append, waiting, List.map_append,
      Token.map_written_directive sorts.directive _ cursor.lexer.names, ← List.append_assoc]
    exact sorts.each.append (.of_eq draws.marks.symm)

/-- Names and places do not matter. -/
theorem keep (sorts : Sorts source read claimed stepped cursor) (names : NameTable)
    (current : Token Name) (ahead : List (Token Name)) (previous : Span) (position : Nat) :
    Sorts source read claimed stepped
      { lexer := { cursor.lexer with names }
        current, ahead
        directives := cursor.directives
        demoted := cursor.demoted
        previous, position } := by
  refine ⟨sorts.isSource, sorts.pieces, sorts.comments, sorts.demoted, sorts.directive, ?_⟩
  rw [waiting, Token.map_written_directive sorts.directive _ cursor.lexer.names]
  exact sorts.each

/-- The first of the directives that wait are stepped over. -/
theorem demoteBefore (sorts : Sorts source read claimed stepped cursor) (offset : Nat) :
    ∃ passed, Sorts source read claimed (stepped ++ passed) (cursor.demoteBefore offset) := by
  have whole := List.takeWhile_append_dropWhile
    (p := fun mark : Token Name => decide (mark.span.start < offset)) (l := cursor.directives)
  refine ⟨(cursor.directives.takeWhile fun mark => decide (mark.span.start < offset)).map
      (Token.written cursor.lexer.names), sorts.isSource, sorts.pieces, sorts.comments, ?_, ?_, ?_⟩
  · rw [List.map_append, ← sorts.demoted, Cursor.demoteBefore, Array.toList_append, List.map_map,
      ← sorts.isSource]
    rfl
  · exact fun mark member => sorts.directive mark (List.dropWhile_subset _ member)
  · have each := sorts.each
    rw [waiting, ← whole, List.map_append] at each
    rwa [← List.append_assoc claimed, List.append_assoc (claimed ++ stepped)]

/-- A step makes comments of the directives before the token that it takes. -/
theorem advance (sorts : Sorts source read claimed stepped cursor) :
    ∃ drawn passed, Sorts source (read ++ drawn) claimed (stepped ++ passed) cursor.advance.2 := by
  cases atEnd : cursor.isAtEnd with
  | true =>
    rw [advance_atEnd atEnd]
    refine ⟨[], [], ?_⟩
    rwa [List.append_nil, List.append_nil]
  | false =>
    obtain ⟨passed, demoted⟩ := sorts.demoteBefore cursor.current.span.start
    unfold Cursor.advance
    simp only [atEnd, Bool.false_eq_true, if_false]
    cases ahead : cursor.ahead with
    | cons next others =>
      refine ⟨[], passed, ?_⟩
      rw [List.append_nil]
      simp only [Cursor.demoteBefore, ahead] at demoted ⊢
      exact demoted.keep _ next others _ _
    | nil =>
      obtain ⟨drawn, pulled⟩ := demoted.pull (Cursor.pull cursor.lexer).1 []
        cursor.current.span (cursor.position + 1)
      refine ⟨drawn, passed, ?_⟩
      simp only [Cursor.demoteBefore, ahead] at pulled ⊢
      exact pulled

/-- Looking further makes nothing a comment. -/
theorem lookFurther (count : Nat) (sorts : Sorts source read claimed stepped cursor) :
    ∃ drawn, Sorts source (read ++ drawn) claimed stepped (Cursor.lookFurther count cursor) := by
  induction count generalizing read cursor with
  | zero => exact ⟨[], by rwa [List.append_nil]⟩
  | succ count ih =>
    obtain ⟨drawn, pulled⟩ := sorts.pull cursor.current
      (cursor.ahead ++ [(Cursor.pull cursor.lexer).1]) cursor.previous cursor.position
    obtain ⟨more, looked⟩ := ih pulled
    rw [List.append_assoc] at looked
    exact ⟨drawn ++ more, looked⟩

/-- Looking at a token makes nothing a comment. -/
theorem peek (sorts : Sorts source read claimed stepped cursor) (places : Nat) :
    ∃ drawn, Sorts source (read ++ drawn) claimed stepped (cursor.peek places).2 := by
  cases places with
  | zero => exact ⟨[], by rwa [List.append_nil]⟩
  | succ place => exact sorts.lookFurther (place + 1 - cursor.ahead.length)

/-- What is claimed waits no longer. -/
theorem takeDirective (sorts : Sorts source read claimed stepped cursor) :
    Sorts source read
      (claimed ++ (cursor.takeDirective.1.map
        (Token.written cursor.takeDirective.2.lexer.names)).toList)
      stepped cursor.takeDirective.2 := by
  unfold Cursor.takeDirective
  cases queue : cursor.directives with
  | nil => simpa using sorts
  | cons mark marks =>
    by_cases early : mark.span.start < cursor.current.span.start
    · simp only [if_pos early]
      have directive := sorts.directive
      rw [queue] at directive
      refine ⟨sorts.isSource, sorts.pieces, sorts.comments, sorts.demoted,
        (List.forall_mem_cons.mp directive).2, .trans ?_ sorts.each⟩
      -- The directive moves from the front of the queue to the end of what was claimed.
      rw [waiting, waiting, queue, List.append_assoc, List.append_assoc, List.append_assoc,
        Option.map_some, Option.toList_some, List.singleton_append, List.map_cons]
      exact List.Perm.append_left claimed List.perm_middle.symm
    · simp only [if_neg early]
      simpa using sorts

/-- Skipping makes comments of the directives on the way. -/
theorem skipWithin (stop : Cursor → Bool) (count : Nat)
    (sorts : Sorts source read claimed stepped cursor) :
    ∃ drawn passed, Sorts source (read ++ drawn) claimed (stepped ++ passed)
      (Cursor.skipWithin stop count cursor) := by
  induction count generalizing read stepped cursor with
  | zero => exact ⟨[], [], by rwa [List.append_nil, List.append_nil]⟩
  | succ count ih =>
    rw [Cursor.skipWithin]
    by_cases halts : (cursor.isAtEnd || stop cursor) = true
    · rw [if_pos halts]
      exact ⟨[], [], by rwa [List.append_nil, List.append_nil]⟩
    · rw [if_neg halts]
      obtain ⟨drawn, passed, once⟩ := sorts.advance
      obtain ⟨more, others, last⟩ := ih once
      rw [List.append_assoc, List.append_assoc] at last
      exact ⟨drawn ++ more, passed ++ others, last⟩

/-- After an operation every directive that was read is in one place. -/
theorem perform (sorts : Sorts source read claimed stepped cursor) (operation : Operation) :
    ∃ drawn passed, Sorts source (read ++ drawn)
      (claimed ++ (cursor.perform operation).1.claimed) (stepped ++ passed)
      (cursor.perform operation).2 := by
  -- Only one operation claims anything.
  have silent {drawn : List Piece} {passed : List (Token String)} {after : Cursor}
      (kept : Sorts source (read ++ drawn) claimed (stepped ++ passed) after) :
      ∃ drawn passed, Sorts source (read ++ drawn) (claimed ++ []) (stepped ++ passed) after :=
    ⟨drawn, passed, by rwa [List.append_nil]⟩
  have still {after : Cursor} (kept : Sorts source read claimed stepped after) :
      Sorts source (read ++ []) claimed (stepped ++ []) after := by
    rwa [List.append_nil, List.append_nil]
  obtain ⟨drawn, passed, advanced⟩ := sorts.advance
  cases operation with
  | advance => exact silent advanced
  | eat tag =>
    rw [Cursor.perform, Cursor.eat]
    cases cursor.check tag with
    | true => exact silent advanced
    | false => exact silent (still sorts)
  | check tag => exact silent (still sorts)
  | peek places =>
    obtain ⟨drawn, looked⟩ := sorts.peek places
    rw [← List.append_nil stepped] at looked
    exact silent looked
  | takeDirective => exact ⟨[], [], by
      rw [List.append_nil, List.append_nil]
      exact sorts.takeDirective⟩
  | skipToEnd =>
    obtain ⟨drawn, passed, skipped⟩ := sorts.skipWithin (fun _ => false) cursor.tokensLeft
    exact silent skipped
  | synchronize boundary =>
    obtain ⟨drawn, passed, skipped⟩ := sorts.skipWithin
      (fun here => boundary.contains here.current.tag || here.isAtLineStart) cursor.tokensLeft
    exact silent skipped
  | intern text => exact silent (still (sorts.keep ..))
  | splitSymbol =>
    by_cases symbol : cursor.current.tag = .symbol
    · obtain ⟨name, same, _⟩ := Cursor.current_symbol symbol
      rw [Cursor.perform, splitSymbol_eq same]
      exact silent (still (sorts.keep ..))
    · rw [Cursor.perform, splitSymbol_of_ne cursor symbol]
      exact silent (still sorts)

/-- After operations every directive that was read is in one place. -/
theorem performAll (operations : List Operation)
    (sorts : Sorts source read claimed stepped cursor) :
    ∃ drawn passed, Sorts source (read ++ drawn)
      (claimed ++ (cursor.performAll operations).1.flatMap (·.claimed)) (stepped ++ passed)
      (cursor.performAll operations).2 := by
  induction operations generalizing read claimed stepped cursor with
  | nil => exact ⟨[], [], by simpa [Cursor.performAll, Operation.all] using sorts⟩
  | cons operation operations ih =>
    obtain ⟨drawn, passed, once⟩ := sorts.perform operation
    obtain ⟨more, others, last⟩ := ih once
    rw [List.append_assoc, List.append_assoc, List.append_assoc] at last
    exact ⟨drawn ++ more, passed ++ others, last⟩

/-- At the end all that was not claimed is among the comments, in the order of the text. -/
theorem finish (sorts : Sorts source read claimed stepped cursor)
    (early : ∀ mark ∈ cursor.directives, mark.span.start < Span.offsetLimit) :
    cursor.finish.comments.toList.Perm (cursor.lexer.comments.toList ++
        (stepped ++ cursor.waiting).map (Token.comment source)) ∧
      cursor.finish.comments.toList.Pairwise fun left right =>
        left.span.start ≤ right.span.start := by
  have all : cursor.directives.takeWhile
      (fun mark => decide (mark.span.start < Span.offsetLimit)) = cursor.directives :=
    List.takeWhile_eq_self_iff.mpr fun mark member => decide_eq_true (early mark member)
  have demoted : (cursor.demoteBefore Span.offsetLimit).demoted.toList =
      (stepped ++ cursor.waiting).map (Token.comment source) := by
    rw [Cursor.demoteBefore, all, Array.toList_append, sorts.demoted, List.map_append, waiting,
      List.map_map, ← sorts.isSource]
    rfl
  have handed : cursor.finish.comments.toList =
      (cursor.lexer.comments.toList ++ (stepped ++ cursor.waiting).map (Token.comment source)).mergeSort
        fun left right => left.span.start ≤ right.span.start := by
    rw [← demoted, ← Array.toList_append]
    rfl
  rw [handed]
  refine ⟨List.mergeSort_perm _ _, List.Pairwise.imp of_decide_eq_true
    (List.pairwise_mergeSort (fun left middle right => ?_) (fun left right => ?_) _)⟩
  · simp only [decide_eq_true_eq]
    exact Nat.le_trans
  · simp only [Bool.or_eq_true, decide_eq_true_eq]
    exact Nat.le_total _ _

end Sorts

variable {cursor : Cursor} {tokens : List (Token String)}

/-- A step takes no directive. -/
theorem takes_advance (pending : cursor.Pending tokens) :
    ∃ taken rest, cursor.Moves tokens taken rest cursor.advance.2 ∧
      Token.directives taken = [] := by
  cases atEnd : cursor.isAtEnd with
  | true =>
    rw [advance_atEnd atEnd]
    exact ⟨[], tokens, .refl pending, rfl⟩
  | false =>
    obtain ⟨before, rest, rfl, directive, plain, _⟩ := pending.ahead atEnd
    exact ⟨_, rest, moves_advance pending directive atEnd,
      Token.directives_cons (by rwa [Token.isDirective_written]) []⟩

/-- Skipping takes no directive. -/
theorem takes_skipUntil (pending : cursor.Pending tokens) (stop : Cursor → Bool) :
    ∃ taken rest, cursor.Moves tokens taken rest (cursor.skipUntil stop) ∧
      Token.directives taken = [] := by
  obtain ⟨taken, rest, moves, plain⟩ := moves_skipWithin stop cursor.tokensLeft pending
  exact ⟨taken, rest, moves, List.filter_eq_nil_iff.mpr fun token member =>
    ne_true_of_eq_false (plain token member)⟩

/-- The directives that an operation takes are those that it claims. -/
theorem takes_perform (pending : cursor.Pending tokens) (operation : Operation) :
    ∃ taken rest, cursor.Moves tokens taken rest (cursor.perform operation).2 ∧
      Token.directives taken = (cursor.perform operation).1.claimed := by
  cases operation with
  | advance => exact takes_advance pending
  | eat tag =>
    rw [perform, eat]
    cases cursor.check tag with
    | true => exact takes_advance pending
    | false => exact ⟨[], tokens, .refl pending, rfl⟩
  | check tag => exact ⟨[], tokens, .refl pending, rfl⟩
  | peek places => exact ⟨[], tokens, (looks_peek pending places).1.moves, rfl⟩
  | takeDirective =>
    rcases moves_takeDirective pending with ⟨none, _⟩ | ⟨mark, rest, claims, directive, moves⟩
    · rw [perform, none]
      exact ⟨[], tokens, .refl pending, rfl⟩
    · refine ⟨_, rest, moves, ?_⟩
      have claimed : (cursor.perform .takeDirective).1.claimed =
          [mark.written cursor.takeDirective.2.lexer.names] := by
        rw [perform, Effect.claimed]
        simp only [claims, Option.map_some, Option.toList_some]
      rw [claimed, Token.written_directive directive cursor.lexer.names
        cursor.takeDirective.2.lexer.names]
      exact Token.directives_eq_self
        (List.forall_mem_singleton.mpr (by rwa [Token.isDirective_written]))
  | skipToEnd => exact takes_skipUntil pending fun _ => false
  | synchronize boundary =>
    exact takes_skipUntil pending fun here =>
      boundary.contains here.current.tag || here.isAtLineStart
  | intern text => exact ⟨[], tokens, (looks_intern pending text).moves, rfl⟩
  | splitSymbol =>
    obtain ⟨rest, moves, _⟩ := moves_splitSymbol_of_pending pending
    exact ⟨[], rest, moves, rfl⟩

/-- The directives that operations take are those that they claim. -/
theorem takes_performAll (operations : List Operation) (pending : cursor.Pending tokens) :
    ∃ taken rest, cursor.Moves tokens taken rest (cursor.performAll operations).2 ∧
      Token.directives taken = (cursor.performAll operations).1.flatMap (·.claimed) := by
  induction operations generalizing cursor tokens with
  | nil => exact ⟨[], tokens, .refl pending, rfl⟩
  | cons operation operations ih =>
    obtain ⟨taken, middle, moves, claimed⟩ := takes_perform pending operation
    obtain ⟨more, rest, others, remaining⟩ := ih moves.pending
    refine ⟨taken ++ more, rest, moves.trans others, ?_⟩
    rw [Token.directives_append, claimed, remaining]
    rfl

/-- The current token lies behind all directives that can be claimed. -/
theorem Pending.stop_le_current {mark : Token String} (pending : cursor.Pending tokens)
    (stands : mark.Stands cursor.source) (precedes : ∀ token ∈ tokens, mark.Precedes token) :
    mark.span.stop ≤ cursor.current.span.start := by
  cases atEnd : cursor.isAtEnd with
  | true =>
    rw [(pending.atEnd atEnd).1]
    exact stands.inside
  | false =>
    obtain ⟨before, rest, rfl, _, _, _⟩ := pending.ahead atEnd
    exact (precedes _ (List.mem_append_right _ List.mem_cons_self)).1

end Cursor

/-- No directive is lost and none is seen twice. Whatever a cursor is asked, in whatever order, each
directive of the text that was read was claimed once, or was stepped over, or waits. What is claimed
next lies between what was taken last and the current token, and before all that waits. At the end
the comments are those of the text and every directive that was not claimed, in order. -/
theorem keeps_directives (source : String) (operations : List Cursor.Operation) :
    let run := (Cursor.ofSource source).performAll operations
    let claimed := run.1.flatMap (·.claimed)
    ∃ read stepped,
      Piece.list source.toList = read ++ run.2.lexer.pieces ∧
      (claimed ++ stepped ++ run.2.waiting).Perm (Token.directives (Piece.tokens read)) ∧
      (claimed ++ stepped ++ run.2.waiting).Nodup ∧
      run.2.demoted.toList = stepped.map (Token.comment source.toList) ∧
      claimed.Pairwise Token.Precedes ∧
      (∀ mark ∈ run.2.takeDirective.1,
        run.2.previous.stop ≤ mark.span.start ∧ mark.span.stop ≤ run.2.current.span.start ∧
        (∀ other ∈ claimed, other.Precedes mark) ∧
        ∀ other ∈ run.2.takeDirective.2.directives, mark.Precedes other) ∧
      run.2.lexer.comments.toList = read.filterMap Piece.comment? ∧
      (Text.byteLength source.toList ≤ Span.offsetLimit →
        run.2.finish.comments.toList.Perm (run.2.lexer.comments.toList ++
          (stepped ++ run.2.waiting).map (Token.comment source.toList)) ∧
        run.2.finish.comments.toList.Pairwise fun left right =>
          left.span.start ≤ right.span.start) := by
  obtain ⟨pending, isSource, _⟩ := Cursor.start_ofSource source
  obtain ⟨taken, rest, moves, claims⟩ := Cursor.takes_performAll operations pending
  obtain ⟨first, start⟩ := Cursor.Sorts.start source
  obtain ⟨drawn, stepped, sorts⟩ := start.performAll operations
  rw [List.nil_append] at sorts
  have origin : (Cursor.ofSource source).previous = .point 0 := rfl
  have line := (moves.consumes.inLine (isSource ▸ pending.line)).1
  generalize (Cursor.ofSource source).performAll operations = run at *
  have claimed : (run.1.flatMap (·.claimed)).Pairwise Token.Precedes := by
    rw [← claims]
    exact (Token.InLine.append_iff.mp line).1.ordered.filter _
  have distinct : (Token.directives (Piece.tokens (first ++ drawn))).Nodup := by
    have whole := (Token.InLine.of_source source.toList).nodup
    rw [sorts.pieces, Piece.tokens, List.filterMap_append] at whole
    exact (List.nodup_append.mp whole).1.filter _
  refine ⟨first ++ drawn, stepped, sorts.pieces, sorts.each, sorts.each.nodup_iff.mpr distinct,
    sorts.demoted, claimed, fun mark isNext => ?_, sorts.comments, fun short => sorts.finish ?_⟩
  · rcases Cursor.moves_takeDirective moves.pending with ⟨none, _⟩ |
      ⟨mark', left, takes, directive, claim⟩
    · rw [none] at isNext
      contradiction
    · obtain rfl : mark' = mark := Option.some.inj (takes.symm.trans isNext)
      -- What was taken, the directive and what is left stand in a line.
      have both := ((moves.trans claim).consumes.inLine (isSource ▸ pending.line)).1
      obtain ⟨before, _, apart⟩ := Token.InLine.append_iff.mp both
      obtain ⟨_, alone, after⟩ := Token.InLine.append_iff.mp before
      have precedes : ∀ token ∈ left, mark'.Precedes token := fun token member =>
        apart (mark'.written _) (List.mem_append_right _ List.mem_cons_self) token member
      refine ⟨?_, ?_, fun other member => ?_, fun other member => ?_⟩
      · rw [moves.previous, origin]
        cases isLast : taken.getLast? with
        | none => exact Nat.zero_le _
        | some last =>
          exact (after last (List.mem_of_getLast? isLast) _ List.mem_cons_self).1
      · rw [← run.2.current_takeDirective]
        have stands := alone.stands _ List.mem_cons_self
        rw [← isSource, ← moves.source, ← claim.source] at stands
        exact claim.pending.stop_le_current stands precedes
      · rw [← claims] at member
        exact after other (List.mem_filter.mp member).1 (mark'.written _) List.mem_cons_self
      · exact precedes _ (claim.pending.mem_of_mem_directives member)
  · intro mark member
    have waits := moves.pending.mem_of_mem_directives member
    have stands := line.stands _ (List.mem_append_right _ waits)
    have filled := stands.directive (by
      rw [Token.isDirective_written]
      exact sorts.directive mark member)
    exact Nat.lt_of_lt_of_le filled (Nat.le_trans stands.inside short)

/-- Among the arguments of a call a directive is stepped over; the one after the call is claimed,
although both were looked at before anything was taken. -/
theorem keeps_directives_call :
    let source := "f(1, # vibe: 1.0\n2)\n# uses: json\nx"
    let run := (Cursor.ofSource source).performAll
      (.peek 9 :: List.replicate 6 .advance ++ [.takeDirective])
    Text.byteLength source.toList ≤ Span.offsetLimit ∧
      run.1.flatMap (·.claimed) = [⟨.usesDirective, ⟨20, 32⟩⟩] ∧
      run.2.demoted.toList = [⟨⟨5, 16⟩, "# vibe: 1.0"⟩] ∧
      ∃ stepped, run.2.demoted.toList = stepped.map (Token.comment source.toList) ∧
        run.2.finish.comments.toList.Perm (run.2.lexer.comments.toList ++
          (stepped ++ run.2.waiting).map (Token.comment source.toList)) := by
  have short : Text.byteLength "f(1, # vibe: 1.0\n2)\n# uses: json\nx".toList ≤
      Span.offsetLimit := by decide +kernel
  refine ⟨short, by decide +kernel, by decide +kernel, ?_⟩
  obtain ⟨_, stepped, _, _, _, demoted, _, _, _, finish⟩ := keeps_directives
    "f(1, # vibe: 1.0\n2)\n# uses: json\nx"
    (.peek 9 :: List.replicate 6 .advance ++ [.takeDirective])
  exact ⟨stepped, demoted, (finish short).1⟩

end Vibescript
