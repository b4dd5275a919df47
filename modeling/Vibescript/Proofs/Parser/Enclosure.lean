import Vibescript.Proofs.Parser.Arrival
import Vibescript.Proofs.Parser.Concatenation

/-!
# A program inside a construct

What is read as a program is read the same as a body: of a `begin` block, of a method, of the block
of a call or of a `rescue` clause. The statement of such a construct is two levels above the
statements in it at most.
-/
namespace Vibescript

open Build Parse Grammar TokenKind

/-- A construct with a body on lines of its own. -/
inductive Enclosure where
  /-- A `begin` block. -/
  | beginBlock
  /-- A method. -/
  | method
  /-- The block of a call. -/
  | callBlock
  /-- A clause after an empty `begin` body, for some errors. -/
  | rescueClause
  deriving DecidableEq, Repr

namespace Enclosure

/-- What stands before the body. -/
def opening : Enclosure → String
  | beginBlock => "begin"
  | method => "def f()"
  | callBlock => "f() do"
  | rescueClause => "begin\nrescue (E)"

/-- The construct around a body. -/
def around (enclosure : Enclosure) (body : String) : String :=
  enclosure.opening ++ "\n" ++ body ++ "\nend"

/-- The construct stands at a node, with a range of statements as its body. -/
def HasBody (arena : Arena) (id : NodeId) (body : NodeRange) : Enclosure → Prop
  | beginBlock => ∃ rescues, arena.Has id (.beginBlock body rescues none) ∧
      arena.Contains rescues ∧ arena.list rescues = []
  | method => ∃ name inputs, arena.Has id (.method false name (some inputs) none body)
  | callBlock => ∃ method arguments block parameters,
      arena.Has id (.call none method arguments (some block)) ∧
        arena.Has block (.block parameters body)
  | rescueClause => ∃ first rescues clause name, arena.Has id (.beginBlock first rescues none) ∧
      arena.Contains rescues ∧ arena.list rescues = [clause] ∧
        arena.Has clause (.rescueClause (some name) body)

/-- It stays there while the arena grows. -/
theorem HasBody.mono {enclosure : Enclosure} {before after : Arena} {id : NodeId}
    {body : NodeRange} (has : enclosure.HasBody before id body) (grows : before.Grows after) :
    enclosure.HasBody after id body := by
  cases enclosure with
  | beginBlock =>
    obtain ⟨rescues, has, inside, none⟩ := has
    exact ⟨rescues, has.mono grows, grows.contains inside, (grows.list inside).trans none⟩
  | method =>
    obtain ⟨name, inputs, has⟩ := has
    exact ⟨name, inputs, has.mono grows⟩
  | callBlock =>
    obtain ⟨method, arguments, block, parameters, has, hasBlock⟩ := has
    exact ⟨method, arguments, block, parameters, has.mono grows, hasBlock.mono grows⟩
  | rescueClause =>
    obtain ⟨first, rescues, clause, name, has, inside, sole, hasClause⟩ := has
    exact ⟨first, rescues, clause, name, has.mono grows, grows.contains inside,
      (grows.list inside).trans sole, hasClause.mono grows⟩

/-- The tokens before the body. -/
def tokens : Enclosure → List (Token String)
  | beginBlock => [⟨.fixed .kwBegin, ⟨0, 5⟩⟩]
  | method => [⟨.fixed .kwDef, ⟨0, 3⟩⟩, ⟨.identifier "f", ⟨4, 5⟩⟩, ⟨.fixed .leftParen, ⟨5, 6⟩⟩,
      ⟨.fixed .rightParen, ⟨6, 7⟩⟩]
  | callBlock => [⟨.identifier "f", ⟨0, 1⟩⟩, ⟨.fixed .leftParen, ⟨1, 2⟩⟩,
      ⟨.fixed .rightParen, ⟨2, 3⟩⟩, ⟨.fixed .kwDo, ⟨4, 6⟩⟩]
  | rescueClause => [⟨.fixed .kwBegin, ⟨0, 5⟩⟩, ⟨.fixed .kwRescue, ⟨6, 12⟩⟩,
      ⟨.fixed .leftParen, ⟨13, 14⟩⟩, ⟨.constant "E", ⟨14, 15⟩⟩, ⟨.fixed .rightParen, ⟨15, 16⟩⟩]

/-- They are those of the text before the body, and it has no errors. -/
theorem tokens_eq (enclosure : Enclosure) :
    Piece.tokens (Piece.list enclosure.opening.toList) = enclosure.tokens ∧
      Piece.faults enclosure.opening.toList = [] := by
  cases enclosure <;> decide +kernel

/-- The tokens of a construct around a text without errors: those before the body, those of the text
further on, and `end`. -/
theorem exists_tokens (enclosure : Enclosure) {source : String}
    (clean : Piece.faults source.toList = []) :
    Piece.faults (enclosure.around source).toList = [] ∧ ∃ inner last distance,
      Parser.sourceTokens (enclosure.around source) = enclosure.tokens ++ (inner ++ [last]) ∧
      last.kind = .fixed .kwEnd ∧
      Token.Follow source.toList (enclosure.around source).toList 0 distance
        (Parser.sourceTokens source) inner := by
  obtain ⟨opens, opensClean⟩ := enclosure.tokens_eq
  have closes : Piece.tokens (Piece.list "end".toList) = [⟨.fixed .kwEnd, ⟨0, 3⟩⟩] ∧
      Piece.faults "end".toList = [] := by
    decide +kernel
  have whole : (enclosure.around source).toList =
      enclosure.opening.toList ++ '\n' :: (source.toList ++ '\n' :: "end".toList) := by
    simp [around]
  have tokens : Parser.sourceTokens (enclosure.around source) = enclosure.tokens ++
      ((Parser.sourceTokens source).map
          (Token.shift (Text.byteLength enclosure.opening.toList + 1)) ++
        [(Token.shift (Text.byteLength source.toList + 1) ⟨.fixed .kwEnd, ⟨0, 3⟩⟩).shift
          (Text.byteLength enclosure.opening.toList + 1)]) := by
    rw [Parser.sourceTokens, whole, Piece.tokens_lines opensClean, Piece.tokens_lines clean, opens,
      closes.1, List.map_append]
    rfl
  have sit : Token.Sit source.toList 0 (Parser.sourceTokens source) := .of_source source.toList
  have inside : (enclosure.around source).toList =
      (enclosure.opening.toList ++ ['\n']) ++ source.toList ++ ('\n' :: "end".toList) := by
    simp [whole]
  have length : Text.byteLength (enclosure.opening.toList ++ ['\n']) =
      Text.byteLength enclosure.opening.toList + 1 := by
    rw [Text.byteLength_append]
    rfl
  have follow : Token.Follow source.toList ((enclosure.opening.toList ++ ['\n']) ++ source.toList ++
      ('\n' :: "end".toList)) 0 _ _ _ := sit.follow_shift
  rw [← inside, length] at follow
  have clean : Piece.faults (enclosure.around source).toList = [] := by
    rw [whole]
    exact Piece.faults_lines opensClean (Piece.faults_lines clean closes.2)
  exact ⟨clean, _, _, _, tokens, rfl, follow⟩

end Enclosure

/-- A grammar reads some tokens before `end` as a body whose statements are shown by some texts. -/
structure Grammar.Encloses (grammar : Grammar) (text : List Char) (soft : SoftNames) (rounds : Nat)
    (inner : List (Token String)) (last : Token String) (texts : List String) : Prop where
  /-- The bound on rounds is that of the text. -/
  sameRounds : grammar.rounds = rounds
  /-- Errors do not stop the parse. -/
  recovers : grammar.options.recovery = .recover
  /-- The last token is `end`. -/
  isEnd : last.kind = .fixed .kwEnd
  /-- It is the first ordinary token, or a statement starts. -/
  opens : Token.opening (inner ++ [last]) = .kwEnd ∨
    (Token.opening (inner ++ [last])).startsStatement = true
  /-- The body is read. -/
  reads : ∀ terminators ∈ [TagSet.blockEnd, TagSet.beginBodyEnd], ∀ there : Parser,
    there.Stands text soft rounds (inner ++ [last]) →
      Arrives text soft rounds (liftM (grammar.body terminators)) there [last]
        fun range forest => forest.DisplaysAll range texts

/-- No token but `end` stands first where no statement starts. -/
theorem Grammar.Encloses.opening_ne {grammar : Grammar} {text : List Char} {soft : SoftNames}
    {rounds : Nat} {inner : List (Token String)} {last : Token String} {texts : List String}
    (encloses : grammar.Encloses text soft rounds inner last texts) (tag : Tag)
    (other : tag ≠ .kwEnd) (starts : tag.startsStatement = false) :
    Token.opening (inner ++ [last]) ≠ tag := by
  rintro rfl
  rcases encloses.opens with isEnd | isStart
  · exact other isEnd
  · rw [starts] at isStart
    contradiction

/-- One round over clauses. -/
def Grammar.clauseStep (keyword : Tag) (clause : Parse NodeId) (ids : Array NodeId) :
    Parse (ForInStep (Array NodeId)) := do
  if ← check keyword then return .yield (ids.push (← clause)) else return .done ids

/-- Clauses are read in rounds. -/
theorem Grammar.clauses_eq (grammar : Grammar) (keyword : Tag) (clause : Parse NodeId) :
    grammar.clauses keyword clause =
      repeatWithin (clauseStep keyword clause) grammar.rounds #[] := rfl

namespace Parser

section

variable {soft : SoftNames} {rounds : Nat} {grammar : Grammar} {now : Parser}
  {kinds : List (TokenKind String)} {keyword : Tag} {clause : Parse NodeId}

/-- Where no clause follows, the clauses end. -/
theorem succeeds_lastClause {holds : Array NodeId → Forest → Prop} {count : Nat}
    {ids : Array NodeId} (faces : now.Faces soft rounds kinds) (other : tagAt kinds 0 ≠ keyword)
    (known : holds ids now.forest) :
    (repeatWithin (clauseStep keyword clause) (count + 1) ids).Succeeds soft rounds now kinds
      holds := by
  refine succeeds_done (succeeds_check.mpr ?_)
  rw [faces.check, if_neg (by rwa [beq_iff_eq])]
  exact .pure faces ⟨ids, rfl, known⟩

/-- Where no clause follows at first, none is read. -/
theorem succeeds_noClauses (sameRounds : grammar.rounds = rounds)
    (faces : now.Faces soft rounds kinds) (other : tagAt kinds 0 ≠ keyword) :
    (grammar.clauses keyword clause).Succeeds soft rounds now kinds fun ids _ => ids = #[] := by
  obtain ⟨count, enough⟩ : ∃ count, grammar.rounds = count + 1 :=
    ⟨rounds - 1, by have := faces.length_lt; omega⟩
  rw [clauses_eq, enough]
  exact succeeds_lastClause faces other rfl

/-- Where one clause follows, it is read. -/
theorem succeeds_soleClause {holds : NodeId → Forest → Prop} (enough : 1 < grammar.rounds)
    (opens : now.cursor.check keyword = true) (other : tagAt kinds 0 ≠ keyword)
    (reads : clause.Succeeds soft rounds now kinds holds) :
    (grammar.clauses keyword clause).Succeeds soft rounds now kinds fun ids forest =>
      ∃ id, ids = #[id] ∧ holds id forest := by
  obtain ⟨count, isMore⟩ : ∃ count, grammar.rounds = count + 1 + 1 :=
    ⟨grammar.rounds - 2, by omega⟩
  have round : (clauseStep keyword clause #[]).Succeeds soft rounds now kinds fun result forest =>
      ∃ ids, result = .yield ids ∧ ∃ id, ids = #[id] ∧ holds id forest := by
    refine succeeds_check.mpr ?_
    rw [if_pos opens]
    exact .bind reads fun id later _ faces known => .pure faces ⟨#[id], rfl, id, rfl, known⟩
  rw [clauses_eq, isMore]
  exact succeeds_yield round fun ids later _ faces known => succeeds_lastClause faces other known

/-- Where no `ensure` follows, none is read. -/
theorem succeeds_noEnsure (faces : now.Faces soft rounds kinds) (other : tagAt kinds 0 ≠ .kwEnsure) :
    grammar.ensure?.Succeeds soft rounds now kinds fun ensure _ => ensure = none := by
  refine succeeds_check.mpr ?_
  rw [faces.check, if_neg (by rwa [beq_iff_eq])]
  exact .pure faces rfl

end

variable {text : List Char} {soft : SoftNames} {rounds : Nat} {grammar : Grammar} {now : Parser}
  {inner rest : List (Token String)} {last : Token String} {texts : List String} {span : Span}
  (encloses : grammar.Encloses text soft rounds inner last texts)

include encloses

/-- Before the last token, `end` is faced. -/
theorem Stands.faces_end (stands : now.Stands text soft rounds [last]) :
    now.Faces soft rounds [.fixed .kwEnd] := by
  have faces := stands.faces
  rwa [Token.kinds, Token.ordinary_cons (by rw [encloses.isEnd]; rfl), List.map_cons,
    encloses.isEnd] at faces

/-- A `begin` block is read. -/
theorem succeeds_beginBlock
    (stands : now.Stands text soft rounds (⟨.fixed .kwBegin, span⟩ :: (inner ++ [last]))) :
    grammar.beginBlock.Succeeds soft rounds now [] fun id forest => ∃ body,
      Enclosure.beginBlock.HasBody forest.arena id body ∧ forest.DisplaysAll body texts := by
  unfold Grammar.beginBlock
  refine (arrives_advance rfl stands).along fun opening here _ stands _ => ?_
  refine (encloses.reads _ (by decide) here stands).along fun body there _ stands displays => ?_
  have faces := stands.faces_end encloses
  refine .bind (succeeds_noClauses encloses.sameRounds faces Tag.noConfusion)
    fun ids later goes faces none => ?_
  rw [none]
  refine .bind (succeeds_addList faces #[]) fun rescues listed lists faces known => ?_
  obtain ⟨inside, empty⟩ := known
  refine .bind (succeeds_noEnsure faces Tag.noConfusion) fun ensure asked asks faces noEnsure => ?_
  rw [noEnsure]
  refine .bind (succeeds_expectEnd faces _ _ _) fun _ ended ends faces _ => ?_
  refine succeeds_closed faces fun id forest grows has => ?_
  have later := (asks.trans ends).forest.trans grows
  exact ⟨body, ⟨rescues, has, later.arena.contains inside, (later.arena.list inside).trans empty⟩,
    displays.mono ((goes.trans lists).forest.trans later)⟩

omit encloses in
/-- The name of a method is read. -/
theorem arrives_methodName {name : String}
    (stands : now.Stands text soft rounds (⟨.identifier name, span⟩ :: rest)) :
    Grammar.methodName.Arrives text soft rounds now rest fun found _ =>
      found.isSingleton = false := by
  have noSelf : Arrives text soft rounds (liftM (Build.ask Lookahead.isSelfQualifier)) now
      (⟨.identifier name, span⟩ :: rest) fun answer _ => answer = false := by
    refine arrives_ask stands (Lookahead.tells_isSelfQualifier.mono fun answer tells => ?_)
    exact Bool.eq_false_iff.mpr fun yes => Tag.noConfusion (tells yes).1
  refine .bind noSelf fun isSingleton asked _ stands no => ?_
  rw [no]
  exact .bind (arrives_expectIdentifier stands _) fun _ later _ stands _ => .pure stands rfl

omit encloses in
/-- An empty parameter list is read. -/
theorem arrives_noParameters {last : Span} (sameRounds : grammar.rounds = rounds)
    (stands : now.Stands text soft rounds
      (⟨.fixed .leftParen, span⟩ :: ⟨.fixed .rightParen, last⟩ :: rest)) :
    grammar.parameters.Arrives text soft rounds now rest fun _ _ => True := by
  unfold Grammar.parameters
  refine .bind (arrives_expect rfl stands _) fun _ opened _ stands _ => ?_
  refine .bind (arrives_noItems rfl stands sameRounds) fun ids listed _ stands none => ?_
  refine .bind (arrives_expectCloser rfl stands _ _) fun _ closed _ stands _ => ?_
  refine .bind (arrives_addList stands ids) fun _ added _ stands _ => ?_
  exact (arrives_addNode stands _ _).imp fun _ _ _ => trivial

/-- A method is read. -/
theorem succeeds_method {first second third fourth : Span}
    (stands : now.Stands text soft rounds (⟨.fixed .kwDef, first⟩ :: ⟨.identifier "f", second⟩ ::
      ⟨.fixed .leftParen, third⟩ :: ⟨.fixed .rightParen, fourth⟩ :: (inner ++ [last]))) :
    grammar.method.Succeeds soft rounds now [] fun id forest => ∃ body,
      Enclosure.method.HasBody forest.arena id body ∧ forest.DisplaysAll body texts := by
  unfold Grammar.method
  refine succeeds_current.mpr ?_
  refine (arrives_eat_none stands Tag.noConfusion).along fun isPrivate plain _ stands isPlain => ?_
  refine (arrives_expect rfl stands _).along fun opening opened _ stands _ => ?_
  refine (arrives_methodName stands).along fun name named _ stands _ => ?_
  have opens : named.cursor.check .leftParen = true := check_self rfl stands
  refine succeeds_check.mpr ?_
  dsimp only
  rw [if_pos opens]
  have inputs : Arrives text soft rounds (some <$> grammar.parameters) named (inner ++ [last])
      fun inputs _ => ∃ id, inputs = some id := by
    rw [map_eq_pure_bind]
    exact .bind (arrives_noParameters encloses.sameRounds stands)
      fun id later _ stands _ => .pure stands ⟨id, rfl⟩
  refine inputs.along fun inputs listed _ stands isList => ?_
  obtain ⟨list, isList⟩ := isList
  have noArrow := encloses.opening_ne .arrow Tag.noConfusion rfl
  refine (arrives_eat_none stands noArrow).along fun arrow bare _ stands none => ?_
  rw [none, isPlain, isList, if_neg Bool.false_ne_true, pure_bind]
  refine (encloses.reads _ (by decide) bare stands).along fun body there _ stands displays => ?_
  have faces := stands.faces_end encloses
  refine .bind (succeeds_expectEnd faces _ _ _) fun _ ended ends faces _ => ?_
  exact succeeds_closed faces fun id forest grows has =>
    ⟨body, ⟨_, _, has⟩, displays.mono (ends.forest.trans grows)⟩

omit encloses in
/-- The errors that a clause is for are read. -/
theorem arrives_rescueFilter {name : String} {first second third : Span}
    (stands : now.Stands text soft rounds (⟨.fixed .leftParen, first⟩ :: ⟨.constant name, second⟩ ::
      ⟨.fixed .rightParen, third⟩ :: rest)) :
    Grammar.rescueFilter?.Arrives text soft rounds now rest fun filter _ =>
      ∃ name, filter = some name := by
  unfold Grammar.rescueFilter?
  refine .bind (arrives_ask stands (Lookahead.tells_isRescueFilter_yes rfl rfl rfl))
    fun answer asked _ stands yes => ?_
  rw [yes]
  refine .bind (arrives_advance rfl stands) fun _ opened _ stands _ => ?_
  refine .bind (arrives_expectConstant stands _) fun name named _ stands _ => ?_
  exact .bind (arrives_expect rfl stands _) fun _ closed _ stands _ => .pure stands ⟨name, rfl⟩

/-- A clause for some errors is read. -/
theorem succeeds_rescueClause {name : String} {first second third fourth : Span}
    (stands : now.Stands text soft rounds (⟨.fixed .kwRescue, first⟩ ::
      ⟨.fixed .leftParen, second⟩ :: ⟨.constant name, third⟩ ::
        ⟨.fixed .rightParen, fourth⟩ :: (inner ++ [last]))) :
    grammar.rescueClause.Succeeds soft rounds now [.fixed .kwEnd] fun id forest => ∃ name body,
      forest.arena.Has id (.rescueClause (some name) body) ∧ forest.DisplaysAll body texts := by
  unfold Grammar.rescueClause
  refine (arrives_advance rfl stands).along fun opening opened _ stands _ => ?_
  refine (arrives_rescueFilter stands).along fun filter here _ stands isFilter => ?_
  obtain ⟨name, isName⟩ := isFilter
  refine (encloses.reads _ (by decide) here stands).along fun body there _ stands displays => ?_
  rw [isName]
  exact succeeds_closed (stands.faces_end encloses) fun id forest grows has =>
    ⟨name, body, has, displays.mono grows⟩

/-- A `begin` block with an empty body and a clause is read. -/
theorem succeeds_rescueBlock {name : String} {first second third fourth : Span}
    (stands : now.Stands text soft rounds (⟨.fixed .kwBegin, span⟩ :: ⟨.fixed .kwRescue, first⟩ ::
      ⟨.fixed .leftParen, second⟩ :: ⟨.constant name, third⟩ :: ⟨.fixed .rightParen, fourth⟩ ::
        (inner ++ [last]))) :
    grammar.beginBlock.Succeeds soft rounds now [] fun id forest => ∃ body,
      Enclosure.rescueClause.HasBody forest.arena id body ∧ forest.DisplaysAll body texts := by
  unfold Grammar.beginBlock
  refine (arrives_advance rfl stands).along fun opening here _ stands _ => ?_
  have stops : TagSet.beginBodyEnd.contains .kwRescue = true := by decide
  have enough : 1 < grammar.rounds := by
    have more := stands.faces.length_lt
    rw [Token.kinds, Token.ordinary_cons rfl, Token.ordinary_cons rfl, List.length_map,
      List.length_cons, List.length_cons, ← encloses.sameRounds] at more
    omega
  refine (arrives_emptyBody encloses.sameRounds encloses.recovers stands rfl stops).along
    fun before there _ stands _ => ?_
  have opens : there.cursor.check .kwRescue = true := check_self rfl stands
  refine .bind (succeeds_soleClause enough opens Tag.noConfusion
    (succeeds_rescueClause encloses stands)) fun ids clauses _ faces known => ?_
  obtain ⟨clause, isSole, name, body, hasClause, displays⟩ := known
  rw [isSole]
  refine .bind (succeeds_addList faces #[clause]) fun rescues listed lists faces known => ?_
  obtain ⟨inside, sole⟩ := known
  refine .bind (succeeds_noEnsure faces Tag.noConfusion) fun ensure asked asks faces noEnsure => ?_
  rw [noEnsure]
  refine .bind (succeeds_expectEnd faces _ _ _) fun _ ended ends faces _ => ?_
  refine succeeds_closed faces fun id forest grows has => ?_
  have later := (asks.trans ends).forest.trans grows
  have further := lists.forest.trans later
  exact ⟨body, ⟨before, rescues, clause, name, has, later.arena.contains inside,
    (later.arena.list inside).trans sole, hasClause.mono further.arena⟩, displays.mono further⟩

omit encloses in
/-- An empty argument list is read. -/
theorem arrives_noArguments {last : Span} (sameRounds : grammar.rounds = rounds)
    (stands : now.Stands text soft rounds
      (⟨.fixed .leftParen, span⟩ :: ⟨.fixed .rightParen, last⟩ :: rest)) :
    grammar.arguments.Arrives text soft rounds now rest fun _ _ => True := by
  unfold Grammar.arguments
  refine .bind (arrives_expect rfl stands _) fun _ opened _ stands _ => ?_
  refine .bind (arrives_noItems rfl stands sameRounds) fun ids listed _ stands none => ?_
  refine .bind (arrives_expectCloser rfl stands _ _) fun _ closed _ stands _ => ?_
  exact (arrives_addList stands ids).imp fun _ _ _ => trivial

omit encloses in
/-- Where no bar follows, a block has no parameters. -/
theorem arrives_noBlockParameters (stands : now.Stands text soft rounds rest)
    (other : Token.opening rest ≠ .bar) :
    grammar.blockParameters.Arrives text soft rounds now rest fun _ _ => True := by
  unfold Grammar.blockParameters
  refine .bind (arrives_eat_none stands other) fun bar here _ stands none => ?_
  rw [none, if_neg Bool.false_ne_true]
  exact arrives_addNames stands _

/-- The block of a call is read. -/
theorem succeeds_block
    (stands : now.Stands text soft rounds (⟨.fixed .kwDo, span⟩ :: (inner ++ [last]))) :
    grammar.block?.Succeeds soft rounds now [] fun block forest => ∃ id parameters body,
      block = some id ∧ forest.arena.Has id (.block parameters body) ∧
        forest.DisplaysAll body texts := by
  unfold Grammar.block?
  have opens : now.cursor.check .kwDo = true := check_self rfl stands
  refine succeeds_check.mpr ?_
  rw [if_pos opens]
  refine (arrives_advance rfl stands).along fun opening opened _ stands _ => ?_
  have noBar := encloses.opening_ne .bar Tag.noConfusion rfl
  refine (arrives_noBlockParameters stands noBar).along fun parameters here _ stands _ => ?_
  refine (encloses.reads _ (by decide) here stands).along fun body there _ stands displays => ?_
  have faces := stands.faces_end encloses
  refine .bind (succeeds_expectEnd faces _ _ _) fun _ ended ends faces _ => ?_
  have closed : Succeeds soft rounds (liftM (Build.close (.block parameters body) opening.span))
      ended [] fun id forest =>
        forest.arena.Has id (.block parameters body) ∧ forest.DisplaysAll body texts :=
    succeeds_closed faces fun id forest grows has => ⟨has, displays.mono (ends.forest.trans grows)⟩
  exact .bind closed fun id later _ faces ⟨has, displays⟩ =>
    .pure faces ⟨id, parameters, body, rfl, has, displays⟩

/-- A call with a block is read. -/
theorem succeeds_blockCall {first second third fourth : Span}
    (stands : now.Stands text soft rounds (⟨.identifier "f", first⟩ :: ⟨.fixed .leftParen, second⟩ ::
      ⟨.fixed .rightParen, third⟩ :: ⟨.fixed .kwDo, fourth⟩ :: (inner ++ [last]))) :
    (grammar.expressionFrom .assignment).Succeeds soft rounds now [] fun id forest => ∃ body,
      Enclosure.callBlock.HasBody forest.arena id body ∧ forest.DisplaysAll body texts := by
  have isName : now.cursor.current.tag = .identifier := stands.tag
  have ends : EndsExpression .assignment [] := endsExpression_of_separates rfl _
  obtain ⟨count, enough⟩ : ∃ count, grammar.rounds = count + 1 :=
    ⟨rounds - 1, by have := stands.ready.rounds; rw [encloses.sameRounds]; omega⟩
  have primary : grammar.primary.Succeeds soft rounds now [] fun id forest => ∃ body,
      Enclosure.callBlock.HasBody forest.arena id body ∧ forest.DisplaysAll body texts := by
    obtain ⟨word, isWord⟩ := eq_identifier isName
    refine succeeds_current.mpr ?_
    rw [isWord]
    refine (arrives_advance rfl stands).along fun token named _ stands _ => ?_
    have opens : named.cursor.check .leftParen = true := check_self rfl stands
    refine succeeds_check.mpr ?_
    rw [if_pos opens]
    unfold Grammar.call
    refine (arrives_noArguments encloses.sameRounds stands).along fun arguments here _ stands _ => ?_
    refine .bind (succeeds_block encloses stands) fun block there _ faces known => ?_
    obtain ⟨id, parameters, body, isBlock, hasBlock, displays⟩ := known
    rw [isBlock]
    exact succeeds_closed faces fun call forest grows has =>
      ⟨body, ⟨word, arguments, id, parameters, has, hasBlock.mono grows.arena⟩, displays.mono grows⟩
  have operand : grammar.operand.Succeeds soft rounds now [] fun id forest => ∃ body,
      Enclosure.callBlock.HasBody forest.arena id body ∧ forest.DisplaysAll body texts := by
    refine succeeds_atTag isName (Succeeds.bind primary fun id later _ faces known => ?_)
    rw [chain_eq, enough]
    exact succeeds_chainEnd ends.toEndsOperand faces known
  rw [expressionFrom_eq]
  refine .bind operand fun id later _ faces known => ?_
  rw [loop, enough]
  exact succeeds_infixEnd ends faces known

/-- A statement that is a call with a block is read one level deeper. -/
theorem succeeds_blockStatement {outer : Grammar} {first second third fourth : Span}
    (deeper : outer.expression = grammar.expressionFrom .assignment)
    (stands : now.Stands text soft rounds (⟨.identifier "f", first⟩ :: ⟨.fixed .leftParen, second⟩ ::
      ⟨.fixed .rightParen, third⟩ :: ⟨.fixed .kwDo, fourth⟩ :: (inner ++ [last]))) :
    outer.statement.Succeeds soft rounds now [] fun id forest => ∃ body,
      Enclosure.callBlock.HasBody forest.arena id body ∧ forest.DisplaysAll body texts := by
  have isName : now.cursor.current.tag = .identifier := stands.tag
  have plain : outer.plainStatement.Succeeds soft rounds now [] fun id forest => ∃ body,
      Enclosure.callBlock.HasBody forest.arena id body ∧ forest.DisplaysAll body texts := by
    refine succeeds_atTag isName ((arrives_ask stands (Lookahead.tells_noImport
      Tag.noConfusion)).along fun answer asked _ stands no => ?_)
    rw [no, deeper]
    exact succeeds_blockCall encloses stands
  exact succeeds_atTag isName plain

end Parser

namespace Grammar

variable {options others : ParseOptions} {text : List Char} {soft : SoftNames} {rounds levels : Nat}
  {source : String} {inner : List (Token String)} {last : Token String}

/-- What ends such a body starts no statement; `end` is among it. -/
theorem terminates_body (terminators : TagSet)
    (member : terminators ∈ [TagSet.blockEnd, TagSet.beginBodyEnd]) :
    terminators.contains .kwEnd = true ∧
      ∀ tag : Tag, terminators.contains tag = true → tag.startsStatement = false := by
  rcases List.mem_pair.mp member with rfl | rfl
  · exact ⟨by decide, fun tag => by cases tag <;> decide⟩
  · exact ⟨by decide, fun tag => by cases tag <;> decide⟩

/-- Before `end`, the first ordinary token is that of a program, or `end`. -/
theorem opening_inner (recovers : options.recovery = .recover)
    (clean : (parseWith options source).errors = [])
    (kinds : Token.kinds (Parser.sourceTokens source) = Token.kinds inner)
    (isEnd : last.kind = .fixed .kwEnd) :
    Token.opening (inner ++ [last]) = .kwEnd ∨
      (Token.opening (inner ++ [last])).startsStatement = true := by
  have starts := Parser.startsStatement_opening recovers clean
  have whole : Token.kinds (inner ++ [last]) = Token.kinds inner ++ [last.kind] := by
    rw [Token.kinds, Token.ordinary_append, Token.ordinary_cons (by rw [isEnd]; rfl),
      List.map_append]
    rfl
  rw [Token.opening, kinds] at starts
  rw [Token.opening, whole]
  cases first : Token.kinds inner with
  | nil =>
    left
    rw [isEnd]
    rfl
  | cons kind more =>
    rw [first] at starts
    obtain ⟨token, _, isFirst, isKind, _⟩ := List.map_eq_cons_iff.mp (kinds.trans first)
    have member : token ∈ Parser.sourceTokens source :=
      (List.mem_filter.mp (isFirst ▸ List.mem_cons_self)).1
    have real := (Piece.stands_of_mem_tokens member).notEnd
    rw [isKind] at real
    exact .inr (starts.resolve_left fun atEnd => real (TokenKind.eq_endOfInput atEnd))

/-- A level with as many levels below it as a program needs encloses the program. -/
theorem encloses_level {before earlier : Nat}
    (follow : Token.Follow source.toList text before earlier (Parser.sourceTokens source) inner)
    (isEnd : last.kind = .fixed .kwEnd) (clean : (parseWith options source).errors = [])
    (enough : Parser.rounds source < rounds)
    (recovers : options.recovery = .recover ∧ others.recovery = .recover)
    (le : options.maxDepth ≤ levels) :
    (level others soft rounds levels).Encloses text soft rounds inner last
      (parseWith options source).sexps := by
  have plain : last.kind.isDirective = false := by rw [isEnd]; rfl
  have tag : last.tag = .kwEnd := congrArg TokenKind.tag isEnd
  have opening : Token.opening [last] = .kwEnd := by
    rw [Token.opening, Token.kinds, Token.ordinary_cons plain]
    exact tag
  have detached : Token.Detached (Parser.sourceTokens source) [last] :=
    ⟨by rw [opening]; rfl, Parser.rests_sourceTokens clean,
      fun _ _ _ => by rw [opening]; decide⟩
  refine ⟨rfl, recovers.2, isEnd, opening_inner recovers.1 clean follow.kinds_ordinary isEnd,
    fun terminators member there stands => ?_⟩
  obtain ⟨terminates, closes⟩ := terminates_body terminators member
  exact stands.arrives_body follow detached clean enough recovers le plain
    (tag ▸ terminates) closes

end Grammar

/-- The construct around a program is read as a statement, up to two levels above the program. -/
theorem Enclosure.succeeds_statement (enclosure : Enclosure) {options others : ParseOptions}
    {text : List Char} {soft : SoftNames} {rounds limit before earlier : Nat} {source : String}
    {inner : List (Token String)} {last : Token String} {now : Parser}
    (follow : Token.Follow source.toList text before earlier (Parser.sourceTokens source) inner)
    (isEnd : last.kind = .fixed .kwEnd) (clean : (parseWith options source).errors = [])
    (enough : Parser.rounds source < rounds)
    (recovers : options.recovery = .recover ∧ others.recovery = .recover)
    (le : options.maxDepth ≤ limit)
    (stands : now.Stands text soft rounds (enclosure.tokens ++ (inner ++ [last]))) :
    (level others soft rounds (limit + 1)).statement.Succeeds soft rounds now [] fun id forest =>
      ∃ body, enclosure.HasBody forest.arena id body ∧
        forest.DisplaysAll body (parseWith options source).sexps := by
  have encloses : (level others soft rounds (limit + 1)).Encloses text soft rounds inner last _ :=
    encloses_level follow isEnd clean enough recovers (Nat.le_succ_of_le le)
  have tag := stands.tag
  cases enclosure with
  | beginBlock => exact Parser.succeeds_atTag tag (Parser.succeeds_beginBlock encloses stands)
  | method => exact Parser.succeeds_atTag tag (Parser.succeeds_method encloses stands)
  | rescueClause => exact Parser.succeeds_atTag tag (Parser.succeeds_rescueBlock encloses stands)
  | callBlock =>
    have encloses : (level others soft rounds limit).Encloses text soft rounds inner last _ :=
      encloses_level follow isEnd clean enough recovers le
    have deeper : (level others soft rounds (limit + 1)).expression =
        (level others soft rounds limit).expressionFrom .assignment :=
      descend_succ others soft rounds limit (.expression .assignment)
    exact Parser.succeeds_blockStatement encloses deeper stands

namespace Parser

variable {others : ParseOptions} {soft : SoftNames} {rounds levels : Nat} {start : Parser}
  {tokens : List (Token String)} {token : Token String} {holds : NodeId → Forest → Prop}

/-- Where the first token is no directive, the last is none either, and a statement takes all
ordinary tokens, the program is this statement. -/
theorem Stands.sole_statement {text : List Char}
    (stands : start.Stands text soft rounds (token :: tokens))
    (recovers : others.recovery = .recover) (deep : others.maxDepth = levels + 1)
    (plain : token.kind.isDirective = false) (real : token.tag ≠ .endOfInput)
    (closes : ∀ last ∈ (token :: tokens).getLast?, last.kind.isDirective = false)
    (reads : (level others soft rounds levels).statement.Succeeds soft rounds start [] holds) :
    ∃ id after, repeatWithin ((outermost others soft rounds).bodyStep .empty) rounds #[] start =
      (#[id], after) ∧ after.errors = #[] ∧ holds id after.forest := by
  have deeper : (outermost others soft rounds).deeper .statement =
      (level others soft rounds levels).statement := by
    show descend others soft rounds others.maxDepth .statement = _
    rw [deep]
    exact descend_succ others soft rounds levels .statement
  have deepens : (outermost others soft rounds).Deepens soft rounds :=
    deepens_descend others soft rounds others.maxDepth
  obtain ⟨count, enough⟩ : ∃ count, rounds = count + 1 :=
    ⟨rounds - 1, by have := stands.ready.rounds; omega⟩
  obtain ⟨unclaimed, tag⟩ := stands.poised.unclaimed plain
  have goesOn : ¬(start.cursor.current.tag == .endOfInput ||
      TagSet.contains .empty start.cursor.current.tag) = true := by
    rw [tag, TagSet.contains_empty, Bool.or_false, beq_iff_eq]
    exact real
  -- The first round reads the statement.
  have round : (outermost others soft rounds).bodyStep .empty #[] start =
      (outermost others soft rounds).statementStep #[] start := by
    rw [bodyStep_statement (shouldHalt_eq recovers stands.goesOn) unclaimed, if_neg goesOn]
  have stepped : Build.Outcome ((outermost others soft rounds).statementStep #[]) start _ :=
    succeeds_statementStep deepens stands.ready (deeper ▸ reads)
  obtain ⟨id, item, left, isYield, run, goes, faces, known⟩ := stepped
  generalize (outermost others soft rounds).statementStep #[] start = outcome at *
  obtain ⟨result, after⟩ := outcome
  subst isYield
  -- The second finds nothing.
  have atEnd : after.cursor.isAtEnd = true := by
    rw [Cursor.isAtEnd, faces.tag]
    rfl
  have none := run.passes.moves.consumes.eq_nil closes (run.passes.moves.pending.atEnd atEnd).2.2
  have idle : ¬after.cursor.Busy := fun busy => busy.ne_nil run.passes.moves.pending none
  have stillOn : after.isHalted = false := goes.halted.trans stands.goesOn
  refine ⟨id, after, ?_, goes.errors.trans stands.clean, known⟩
  rw [enough] at round ⊢
  rw [Build.run_yield round, statements_idle recovers stillOn idle]
  rfl

end Parser

/-- A parse without errors found a construct as its only statement, and the statements of its body
are shown by some texts. -/
structure Enclosure.Surrounds (enclosure : Enclosure) (output : ParseOutput)
    (texts : List String) : Prop where
  /-- There are no errors. -/
  errors : output.errors = []
  /-- The construct is the only statement. -/
  body : ∃ id body, output.tree.statements = [id] ∧ enclosure.HasBody output.tree.arena id body ∧
    (output.tree.arena.list body).map output.tree.sexpOf = texts

/-- What was read as the only statement is the program. -/
theorem Enclosure.surrounds_of_lists {enclosure : Enclosure} {options : ParseOptions}
    {source : String} {id : NodeId} {body : NodeRange} {after : Parser} {texts : List String}
    (faults : Piece.faults source.toList = [])
    (lists : Parser.Lists options source #[id] after) (clean : after.errors = #[])
    (has : enclosure.HasBody after.forest.arena id body)
    (displays : after.forest.DisplaysAll body texts) :
    enclosure.Surrounds (parseWith options source) texts := by
  have noErrors := Parser.clean_iff.mpr ⟨faults, lists.errors.trans clean⟩
  refine ⟨noErrors, id, body, lists.statements, ?_⟩
  have grows := lists.grows
  rw [parseWith_eq, Parser.tree_finish]
  generalize Parser.run options source = outcome at grows ⊢
  exact ⟨has.mono grows.arena, Forest.map_sexpWithin (displays.mono grows).2 (.refl _) _
    (Nat.le_refl _)⟩

/-- From the start of a construct around a program the construct is read, and nothing else. -/
theorem Enclosure.reads_around (enclosure : Enclosure) {options others : ParseOptions}
    {soft : SoftNames} {start : Parser} {source whole : String} {rounds limit distance : Nat}
    {inner : List (Token String)} {last : Token String} (begins : Parser.Begins whole soft start)
    (tokens : Parser.sourceTokens whole = enclosure.tokens ++ (inner ++ [last]))
    (isEnd : last.kind = .fixed .kwEnd)
    (follow : Token.Follow source.toList whole.toList 0 distance (Parser.sourceTokens source) inner)
    (clean : (parseWith options source).errors = [])
    (recovers : options.recovery = .recover ∧ others.recovery = .recover)
    (le : options.maxDepth ≤ limit) (deep : others.maxDepth = limit + 2)
    (enough : Parser.rounds whole ≤ rounds) (enoughInside : Parser.rounds source < rounds) :
    ∃ id after, repeatWithin ((outermost others soft rounds).bodyStep .empty) rounds #[] start =
      (#[id], after) ∧ after.errors = #[] ∧ ∃ body, enclosure.HasBody after.forest.arena id body ∧
        after.forest.DisplaysAll body (parseWith options source).sexps := by
  have stands : start.Stands whole.toList soft rounds (enclosure.tokens ++ (inner ++ [last])) :=
    ⟨⟨tokens ▸ begins.ready.pending, tokens ▸ Nat.lt_of_lt_of_le begins.ready.rounds enough,
      begins.ready.soft, begins.ready.halted⟩, begins.errors, begins.text⟩
  have reads := enclosure.succeeds_statement follow isEnd clean enoughInside recovers le stands
  obtain ⟨first, more, opens, plain, real⟩ : ∃ first more, enclosure.tokens = first :: more ∧
      first.kind.isDirective = false ∧ first.tag ≠ .endOfInput := by
    cases enclosure <;> exact ⟨_, _, rfl, rfl, Tag.noConfusion⟩
  have closes : ∀ token ∈ (first :: (more ++ (inner ++ [last]))).getLast?,
      token.kind.isDirective = false := by
    intro token isLast
    rw [← List.cons_append, ← List.append_assoc, List.getLast?_concat] at isLast
    rw [← Option.some.inj isLast, isEnd]
    rfl
  rw [opens] at stands
  exact stands.sole_statement recovers.2 deep plain real closes reads

/-- A program stands in a construct around it as it stands by itself: with two more levels the
construct has no errors and is the only statement, and its body has the statements of the program. -/
theorem sexps_around (enclosure : Enclosure) (limit : Nat) {source : String}
    (clean : (parseWith (.recovering limit) source).errors = []) :
    enclosure.Surrounds (parseWith (.recovering (limit + 2)) (enclosure.around source))
      (parseWith (.recovering limit) source).sexps := by
  obtain ⟨faults, inner, last, distance, tokens, isEnd, follow⟩ :=
    enclosure.exists_tokens (Parser.clean_iff.mp clean).1
  generalize enclosure.around source = whole at *
  obtain ⟨rounds, enough, enoughInside⟩ :
      ∃ rounds, Parser.rounds whole ≤ rounds ∧ Parser.rounds source < rounds :=
    ⟨Parser.rounds whole + (Parser.rounds source + 1), by omega, by omega⟩
  have recovers : (ParseOptions.recovering limit).recovery = .recover ∧
      (ParseOptions.recovering (limit + 2)).recovery = .recover := ⟨rfl, rfl⟩
  obtain ⟨id, after, ran, noErrors, body, has, displays⟩ :=
    enclosure.reads_around (Parser.begins_start whole) tokens isEnd follow clean recovers
      (Nat.le_refl limit) rfl enough enoughInside
  exact Enclosure.surrounds_of_lists faults (Parser.lists_of_run enough ran) noErrors has displays

/-- A directive and a loop in the block of a call. -/
theorem sexps_around_directive :
    (parseWith (.recovering 3) "# uses: json\nwhile x y end").errors = [] ∧
      Enclosure.callBlock.Surrounds
        (parseWith (.recovering 5) (Enclosure.callBlock.around "# uses: json\nwhile x y end"))
        (parseWith (.recovering 3) "# uses: json\nwhile x y end").sexps := by
  have clean : (parseWith (.recovering 3) "# uses: json\nwhile x y end").errors = [] := by
    decide +kernel
  exact ⟨clean, sexps_around .callBlock 3 clean⟩

end Vibescript
