import Vibescript.Proofs.Parser.Operators

/-!
# What declarations read

Types, parameters, methods and classes. The word of a type name is read before what it refers to
is settled, and the mark after it comes later still, so what the word names is kept apart until
the node is closed.
-/
namespace Vibescript

/-- In a name table, a kind is the word of a type name. -/
structure TokenKind.WordOf (kind : TokenKind Name) (names : NameTable)
    (reference : TypeReference) (isFolded : Bool) : Prop where
  /-- It names the type. -/
  reads : (kind.map names.text).NamesType (reference.text? names) isFolded
  /-- The table holds its name. -/
  known : kind.Known names
  /-- The table holds the name of the type. -/
  refers : reference.Known names

/-- A kind stays the word of a type name while the table grows. -/
theorem TokenKind.WordOf.mono {kind : TokenKind Name} {before after : NameTable}
    {reference : TypeReference} {isFolded : Bool}
    (word : kind.WordOf before reference isFolded) (grows : before.Grows after) :
    kind.WordOf after reference isFolded := by
  have refers : reference.Known after ∧ reference.text? after = reference.text? before := by
    cases reference with
    | named name => exact ⟨grows.holds word.refers, congrArg some (grows.text word.refers)⟩
    | nil => exact ⟨trivial, rfl⟩
  refine ⟨?_, word.known.mono grows, refers.1⟩
  rw [word.known.map_text grows, refers.2]
  exact word.reads

/-- A name that introduces accessor declarations is a soft keyword. -/
theorem SoftNames.mem_spelling {soft : SoftNames} {name : Name} {kind : AccessorKind}
    (isAccessor : soft.accessor? name = some kind) : (name, kind.keyword) ∈ soft.spelling := by
  unfold SoftNames.accessor? at isAccessor
  split at isAccessor
  · next same =>
    cases isAccessor
    simp [spelling, all, softKeywords, same, AccessorKind.keyword]
  split at isAccessor
  · next same =>
    cases isAccessor
    simp [spelling, all, softKeywords, same, AccessorKind.keyword]
  split at isAccessor
  · next same =>
    cases isAccessor
    simp [spelling, all, softKeywords, same, AccessorKind.keyword]
  · contradiction

/-- A word and a mark after it are a type name. -/
theorem Forest.Spells.typeName {forest : Forest} {kind : TokenKind Name}
    {reference : TypeReference} {isFolded : Bool}
    (word : kind.WordOf forest.names reference isFolded) (isMarked : Bool)
    {nodes : List NodeId} {tokens : List (Token String)}
    (spells : forest.Spells (.token kind :: if isMarked then [.word .question] else []) nodes tokens) :
    forest.Spells [.type reference (isFolded || isMarked)] nodes tokens := by
  obtain ⟨_, _, _, _, rfl, rfl, first, last⟩ :=
    (show forest.Spells ([.token kind] ++ _) nodes tokens from spells).split
  obtain ⟨token, rfl, rfl, written⟩ := first.token_inv
  have named : token.kind.NamesType (reference.text? forest.names) isFolded := by
    cases written with
    | token reads _ => exact reads ▸ word.reads
  cases isMarked with
  | false =>
    cases last
    exact .of_writes (.type none named word.refers (by simp))
  | true =>
    obtain ⟨mark, rfl, rfl, question⟩ := last.token_inv
    refine .of_writes (.type (some mark) named word.refers fun token isMark => ?_)
    obtain rfl := Option.mem_some.mp isMark
    cases question with
    | token reads _ => exact reads

namespace Parser

open Build Parse

variable {soft : SoftNames} {rounds : Nat} {start now : Parser} {grammar : Grammar}
  {tokens taken rest : List (Token String)} {parts : List Part}

/-- The type that an identifier names is found; nothing is read. -/
theorem Reading.namedType {name : Name} (reading : start.Reading soft rounds tokens parts now)
    (current : now.cursor.current.kind = .identifier name)
    {failure : ParseError → Parser → Prop} :
    Parse.Outcome (liftM (Grammar.namedType name)) now
      (fun found after => start.Reading soft rounds tokens parts after ∧
        after.cursor.current = now.cursor.current ∧
        now.cursor.current.kind.WordOf after.forest.names found.1 found.2) failure := by
  have notEnd : now.cursor.isAtEnd = false :=
    notAtEnd (congrArg TokenKind.tag current) Tag.noConfusion
  obtain ⟨rest, pending⟩ := reading.pending
  obtain ⟨_, _, _, _, _, known⟩ := pending.ahead notEnd
  rw [current] at known
  have held : now.cursor.lexer.names.Holds name := known name rfl
  -- A word names the same type once another text was interned.
  have later : ∀ {reference isFolded} {after : NameTable}, now.cursor.lexer.names.Grows after →
      TokenKind.NamesType (.identifier (now.cursor.lexer.names.text name))
        (reference.text? after) isFolded → reference.Known after →
      now.cursor.current.kind.WordOf after reference isFolded := by
    intro reference isFolded after grows reads refers
    rw [current]
    refine ⟨?_, known.mono grows, refers⟩
    rw [known.map_text grows]
    exact reads
  refine .lift (Build.outcome_cursor.mpr ?_)
  dsimp only
  split
  · next marked =>
    have whole : String.ofList (now.cursor.nameText name).toList.dropLast ++ "?" =
        now.cursor.nameText name := by
      obtain ⟨chars, same⟩ := List.getLast?_eq_some_iff.mp marked
      apply String.toList_inj.mp
      rw [String.toList_append, String.toList_ofList, same, List.dropLast_concat]
      rfl
    split
    · next isNil =>
      rw [isNil] at whole
      refine .pure ⟨reading, rfl, later (.refl _) ?_ trivial⟩
      rw [show now.cursor.lexer.names.text name = "nil?" from whole.symm]
      exact .markedNil
    · next other =>
      have interned : Parse.Outcome _ now _ failure :=
        reading.intern (String.ofList (now.cursor.nameText name).toList.dropLast)
      refine .bind (outcome_onCursor.mpr (.pure ⟨interned.1, rfl, later ?_ ?_ interned.2.2.1⟩))
      · exact (Cursor.looks_intern pending _).names
      · rw [show now.cursor.lexer.names.text name = _ from whole.symm, TypeReference.text?]
        exact Eq.subst (motive := fun base => TokenKind.NamesType _ base true)
          (congrArg some interned.2.2.2).symm (.marked other)
  · next plain =>
    exact .pure ⟨reading, rfl, later (.refl _) (.identifier plain) held⟩

/-- The word of a type name is stepped over, and a mark after it. -/
theorem Reading.markType {reference : TypeReference} {isFolded : Bool}
    (reading : start.Reading soft rounds tokens [] now)
    (notEnd : now.cursor.isAtEnd = false)
    (word : now.cursor.current.kind.WordOf now.forest.names reference isFolded) {span : Span}
    (starts : span.start = start.cursor.current.span.start) :
    Parse.Outcome
      (do
        let _ ← Build.advance
        let isMarkedAfter ← Build.eat .question
        Build.close (.typeName reference (isFolded || isMarkedAfter)) span)
      now (fun id after => start.Reading soft rounds tokens [.node .typeName id] after)
      fun _ after => start.Strays soft rounds tokens after := by
  obtain ⟨_, pending⟩ := reading.pending
  refine .bind ((reading.advance_token notEnd rfl).imp fun _ stepped ⟨read, _, same⟩ => ?_)
  obtain ⟨_, step⟩ := Passes.advance pending notEnd
  rw [← same] at step
  obtain ⟨taken, rest, run, opens, filled⟩ := read
  have some := filled (by simp)
  refine .bind (((Reading.refl run.readyNow).eat .question rfl).imp
    fun isMarked after result => ?_)
  have marked : stepped.Reading soft rounds rest
      (if isMarked then [.word .question] else []) after := by
    rcases result with ⟨rfl, read⟩ | ⟨rfl, rfl, _⟩
    · exact read
    · exact .refl run.readyNow
  obtain ⟨more, left, inner, opensMore, _⟩ := marked
  have typed := (run.append inner).recast _ fun _ spells =>
    Forest.Spells.typeName ((word.mono step.forest.names).mono inner.passes.forest.names)
      isMarked spells
  have opened := opens_append opens opensMore
  exact Reading.close ⟨taken ++ more, left, typed, opened, fun _ => by simp [some]⟩ rfl (by simp)
    rfl starts

/-- A type name. -/
theorem reads_typeName :
    Grammar.typeName.Reads soft rounds fun id => [.node .typeName id] := by
  intro start tokens ready _
  unfold Grammar.typeName
  refine Parse.outcome_current.mpr ?_
  have known : start.cursor.isAtEnd = false →
      start.cursor.current.kind.Known start.forest.names := by
    intro notEnd
    obtain ⟨_, _, _, _, _, known⟩ := ready.pending.ahead notEnd
    exact known
  dsimp only
  split
  · next name same =>
    have notEnd : start.cursor.isAtEnd = false :=
      notAtEnd (congrArg TokenKind.tag same) Tag.noConfusion
    refine .bind (((Reading.refl ready).namedType same).imp
      fun found now ⟨read, current, word⟩ => ?_)
    rw [← current] at word
    exact read.markType (by rwa [Cursor.isAtEnd, current]) word rfl
  · next name same =>
    have notEnd : start.cursor.isAtEnd = false :=
      notAtEnd (congrArg TokenKind.tag same) Tag.noConfusion
    have held := known notEnd
    refine (Reading.refl ready).markType notEnd ⟨?_, held, ?_⟩ rfl
    · rw [same]
      exact .constant _
    · rw [same] at held
      exact held name rfl
  · next same =>
    have notEnd : start.cursor.isAtEnd = false :=
      notAtEnd (congrArg TokenKind.tag same) Tag.noConfusion
    have word : start.cursor.current.kind.WordOf start.forest.names .nil false := by
      refine ⟨?_, known notEnd, trivial⟩
      rw [same]
      exact .nil
    exact (Reading.refl ready).markType notEnd word rfl
  · exact Parse.outcome_unexpected.mpr (.bind (.throw (Reading.refl ready).strays))

/-- A type. -/
theorem reads_typeUnion (sameRounds : grammar.rounds = rounds) :
    grammar.typeUnion.Reads soft rounds fun id => [.node .typeUnion id] := by
  intro start tokens ready _
  unfold Grammar.typeUnion
  refine Parse.outcome_current.mpr ?_
  refine .bind (((Reading.refl ready).oneOrMore sameRounds .bar rfl reads_typeName).imp
    fun types now ⟨filled, read⟩ => ?_)
  refine .bind ((read.addList (.separated .typeName (.fixed .bar)) ?_
    (fun arena range list => ?_) (fun arena range inside => inside)).imp fun range now read => ?_)
  · exact Part.joined_ne_nil _ (by simpa using filled)
  · rw [Part.expand?, list]
    rfl
  · exact read.close rfl (by simp) rfl rfl

/-- A default value, if one follows. -/
theorem Reading.default? (reading : start.Reading soft rounds tokens parts now)
    (deepens : grammar.Deepens soft rounds) :
    grammar.default?.Outcome now
      (fun id after => start.Reading soft rounds tokens
        (parts ++ Part.introduced (.word .assign) (.expression .assignment) id) after)
      fun _ after => start.Strays soft rounds tokens after := by
  unfold Grammar.default?
  refine .bind ((reading.eat .assign rfl).imp fun eaten now result => ?_)
  rcases result with ⟨rfl, read⟩ | ⟨rfl, rfl, _⟩
  · refine .bind ((read.andThen (reads_expression deepens)).imp fun value now read => .pure ?_)
    simpa [Part.introduced, Part.anyExpression] using read
  · exact .pure (by simpa [Part.introduced] using reading)

/-- A type after a colon, if one follows. -/
theorem Reading.variableType? (reading : start.Reading soft rounds tokens parts now)
    (sameRounds : grammar.rounds = rounds) :
    grammar.variableType?.Outcome now
      (fun id after => start.Reading soft rounds tokens
        (parts ++ Part.introduced (.word .colon) .typeUnion id) after)
      fun _ after => start.Strays soft rounds tokens after := by
  unfold Grammar.variableType?
  refine .bind (reading.splitSymbol.imp fun _ now ⟨reading, _⟩ => ?_)
  refine .bind ((reading.eat .colon rfl).imp fun eaten now result => ?_)
  rcases result with ⟨rfl, read⟩ | ⟨rfl, rfl, _⟩
  · refine .bind ((read.andThen (reads_typeUnion sameRounds)).imp fun type now read => .pure ?_)
    simpa [Part.introduced] using read
  · exact .pure (by simpa [Part.introduced] using reading)

/-- The current token is stepped over: it is read when it is known, and passed over at least. -/
theorem Reading.step (reading : start.Reading soft rounds tokens parts now)
    {failure : ParseError → Parser → Prop} :
    Parse.Outcome (liftM Build.advance) now
      (fun token after => token = now.cursor.current ∧ start.Strays soft rounds tokens after ∧
        ∀ kind, token.kind = kind → kind.tag ≠ .endOfInput →
          start.Reading soft rounds tokens (parts ++ [.token kind]) after) failure := by
  refine .lift (outcome_onCursor.mpr ⟨now.cursor.advance_fst, ?_, ?_⟩)
  · cases atEnd : now.cursor.isAtEnd with
    | true =>
      rw [Cursor.advance_atEnd atEnd]
      exact reading.strays
    | false =>
      have read : Parse.Outcome _ now _ failure := reading.advance_token atEnd rfl
      exact read.1.strays
  · intro kind same known
    rw [now.cursor.advance_fst] at same
    have read : Parse.Outcome _ now _ failure :=
      reading.advance_token (notAtEnd (congrArg TokenKind.tag same) known) same
    exact read.1

/-- A parameter of a given shape. -/
theorem reads_parameterOf (deepens : grammar.Deepens soft rounds)
    (shape : Lookahead.ParameterShape) :
    (grammar.parameterOf shape).Reads soft rounds fun id => [.node .parameter id] := by
  intro start tokens ready _
  unfold Grammar.parameterOf
  refine .bind ((Reading.refl ready).step.imp fun token now stepped => ?_)
  obtain ⟨same, strays, reads⟩ := stepped
  have starts : token.span.start = start.cursor.current.span.start := by rw [same]
  dsimp only
  split
  · next name kind =>
    have read := reads _ kind Tag.noConfusion
    refine .bind ((read.variableType? deepens.sameRounds).imp fun type now read => ?_)
    exact read.close rfl (by simp) rfl starts
  · next name kind =>
    have read := reads _ kind Tag.noConfusion
    refine .bind (read.splitSymbol.imp fun _ now split => ?_)
    refine .bind ((split.1.expect .colon rfl _).imp fun _ now colon => ?_)
    refine .bind ((colon.1.andThen (reads_typeUnion deepens.sameRounds)).imp
      fun type now read => ?_)
    refine .bind ((read.default? deepens).imp fun default now read => ?_)
    exact read.close (by simp [NodeKind.production]) (by simp) rfl starts
  · next name _ kind =>
    have read := reads _ kind Tag.noConfusion
    refine .bind ((read.default? deepens).imp fun default now read => ?_)
    exact read.close rfl (by simp) rfl starts
  · exact .bind (.throw strays)

/-- A parameter. -/
theorem reads_parameter (deepens : grammar.Deepens soft rounds) :
    grammar.parameter.Reads soft rounds fun id => [.node .parameter id] := by
  intro start tokens ready _
  unfold Grammar.parameter
  refine .bind (((Reading.refl ready).ask fun _ _ => Lookahead.tells_parameter?).imp
    fun shape now ⟨read, _⟩ => ?_)
  cases shape with
  | some shape => exact read.andThen (reads_parameterOf deepens shape)
  | none => exact Parse.outcome_unexpected.mpr (.throw read.strays)

/-- A parameter list. -/
theorem reads_parameters (deepens : grammar.Deepens soft rounds) :
    grammar.parameters.Reads soft rounds fun id => [.node .parameterList id] := by
  intro start tokens ready _
  unfold Grammar.parameters
  refine .bind (((Reading.refl ready).expect .leftParen rfl _).imp
    fun opening now ⟨read, same⟩ => ?_)
  refine .bind ((read.itemsUntil deepens.sameRounds .rightParen
    (reads_parameter deepens)).imp fun items now read => ?_)
  refine .bind ((read.expectCloser _ .rightParen rfl _).imp fun _ now read => ?_)
  refine .bind ((read.addListBefore (.listed .parameter) (by simp) (fun arena range list => ?_)
    (fun arena range inside => inside)).imp fun range now read => ?_)
  · rw [Part.expand?, list]
  · exact read.close rfl (by simp) rfl (by rw [same])

/-- The name of a method, possibly of the class itself. -/
theorem Reading.methodName (reading : start.Reading soft rounds tokens parts now) :
    Grammar.methodName.Outcome now
      (fun name after => start.Reading soft rounds tokens
        (parts ++ (if name.isSingleton then [.word .kwSelf, .word .dot] else []) ++
          [.token (.identifier name.name)]) after)
      fun _ after => start.Strays soft rounds tokens after := by
  unfold Grammar.methodName
  refine .bind ((reading.ask fun _ _ => Lookahead.tells_isSelfQualifier).imp
    fun isSingleton now ⟨read, _, rest, ready, qualifies⟩ => ?_)
  cases isSingleton with
  | false =>
    refine .bind ((read.expectIdentifier _).imp fun found now ⟨read, _⟩ => .pure ?_)
    simpa using read
  | true =>
    obtain ⟨isSelf, isDot⟩ := qualifies rfl
    rw [← ready.pending.tag] at isSelf
    have notEnd := notAtEnd isSelf Tag.noConfusion
    rw [← ready.pending.tag_advance notEnd] at isDot
    rw [if_pos rfl]
    refine .bind ((read.advance_word isSelf rfl).imp fun _ stepped ⟨read, _, same⟩ => ?_)
    have point : stepped.cursor.current.tag = .dot := by
      rw [same]
      exact isDot
    refine .bind ((read.advance_word point rfl).imp fun _ now ⟨read, _⟩ => ?_)
    refine .bind ((read.expectIdentifier _).imp fun found now ⟨read, _⟩ => .pure ?_)
    simpa using read

/-- A reading with a child that may be absent goes on whether or not it is there. -/
theorem Reading.optional {α : Type} {item : Parse NodeId} {category : Category}
    {next : Option NodeId → Parse α} {success : α → Parser → Prop}
    (reading : start.Reading soft rounds tokens parts now)
    (reads : item.Reads soft rounds fun id => [.node category id]) (isPresent : Bool)
    (goes : ∀ id after,
      start.Reading soft rounds tokens (parts ++ Part.possible category id) after →
      (next id).Outcome after success fun _ after => start.Strays soft rounds tokens after) :
    Parse.Outcome
      (if isPresent = true then do
        let id ← some <$> item
        next id
      else do
        let id ← pure none
        next id)
      now success fun _ after => start.Strays soft rounds tokens after := by
  cases isPresent with
  | true => exact .bind (.map ((reading.andThen reads).imp fun id after read => goes _ _ read))
  | false => exact .bind (.pure (goes _ _ (by simpa [Part.possible] using reading)))

/-- A reading with a child after a word goes on whether or not both are there. -/
theorem Reading.introduced {α : Type} {item : Parse NodeId} {category : Category}
    {next : Option NodeId → Parse α} {success : α → Parser → Prop}
    (reading : start.Reading soft rounds tokens parts now)
    (reads : item.Reads soft rounds fun id => [.node category id]) (lead : Tag)
    (spelled : lead.spelling?.isSome = true)
    (goes : ∀ id after, start.Reading soft rounds tokens
        (parts ++ Part.introduced (.word lead spelled) category id) after →
      (next id).Outcome after success fun _ after => start.Strays soft rounds tokens after) :
    Parse.Outcome
      (do
        if ← Build.eat lead then
          let id ← some <$> item
          next id
        else
          let id ← pure none
          next id)
      now success fun _ after => start.Strays soft rounds tokens after := by
  refine .bind ((reading.eat lead spelled).imp fun eaten now result => ?_)
  rcases result with ⟨rfl, read⟩ | ⟨rfl, rfl, _⟩
  · refine .bind (.map ((read.andThen reads).imp fun id after read => goes _ _ ?_))
    simpa [Part.introduced] using read
  · exact .bind (.pure (goes _ _ (by simpa [Part.introduced] using reading)))

/-- A method declaration. -/
theorem reads_method (deepens : grammar.Deepens soft rounds) {category : Category}
    (admitted : ∀ isPrivate name inputs returnType body,
      category.admits (.method isPrivate name inputs returnType body) = true) :
    grammar.method.Reads soft rounds fun id => [.node category id] := by
  intro start tokens ready _
  unfold Grammar.method
  refine Parse.outcome_current.mpr ?_
  refine .bind (((Reading.refl ready).eat .kwPrivate rfl).imp fun isPrivate now result => ?_)
  have read : start.Reading soft rounds tokens
      (if isPrivate then [.word .kwPrivate] else []) now := by
    rcases result with ⟨rfl, read⟩ | ⟨rfl, rfl, _⟩
    · exact read
    · exact .refl ready
  refine .bind ((read.expect .kwDef rfl _).imp fun opening now ⟨read, _⟩ => ?_)
  refine .bind (read.methodName.imp fun name now read => ?_)
  refine Parse.outcome_check.mpr ?_
  dsimp only
  refine read.optional (reads_parameters deepens) _ fun inputs now read => ?_
  refine read.introduced (reads_typeUnion deepens.sameRounds) .arrow rfl
    fun returnType now read => ?_
  refine .bind ((read.body (by simp) deepens .blockEnd).imp fun body now read => ?_)
  refine .bind ((read.expectEnd _ _ _).imp fun _ now read => ?_)
  refine read.close ?_ (by simp) (admitted ..) rfl
  simp [NodeKind.production]

/-- An exported method. -/
theorem reads_exportedMethod (deepens : grammar.Deepens soft rounds) :
    grammar.exportedMethod.ReadsAt soft rounds .kwExport fun id => [.node .statement id] := by
  intro start tokens ready opens
  unfold Grammar.exportedMethod
  refine .bind (((Reading.refl ready).advance_word opens rfl).imp
    fun first now ⟨read, same, _⟩ => ?_)
  refine Parse.outcome_currentTag.mpr ?_
  split
  · have method := reads_method deepens (show ∀ isPrivate name inputs returnType body,
      Category.method.admits (.method isPrivate name inputs returnType body) = true from
        fun _ _ _ _ _ => rfl)
    refine .bind ((read.andThen method).imp fun inner now read => ?_)
    exact read.close rfl (by simp) rfl (by rw [same])
  · exact Parse.outcome_unexpected.mpr (.throw read.strays)

/-- Accessor declarations after their keyword. -/
theorem reads_accessors (sameRounds : grammar.rounds = rounds) {name : Name}
    {kind : AccessorKind} (isAccessor : soft.accessor? name = some kind) :
    (grammar.accessors kind).ReadsWhen soft rounds (fun current => current = .identifier name)
      fun id => [.node .member id] := by
  intro start tokens ready same
  have notEnd : start.cursor.isAtEnd = false :=
    notAtEnd (congrArg TokenKind.tag same) Tag.noConfusion
  have text : start.cursor.lexer.names.text name = kind.keyword :=
    (ready.soft name kind.keyword (SoftNames.mem_spelling isAccessor)).2
  unfold Grammar.accessors
  refine .bind (((Reading.refl ready).advance (.identifier kind.keyword) notEnd fun _ => ?_).imp
    fun first now result => ?_)
  · refine .identifier ?_
    rw [Token.written, same, ← text]
    rfl
  · obtain ⟨read, isFirst, _⟩ := result
    refine .bind ((read.oneOrMore sameRounds .comma rfl (reads_expectIdentifier _)).imp
      fun names now result => ?_)
    obtain ⟨filled, read⟩ := result
    refine .bind ((read.addNames .nameList (by simp) (fun arena range list => ?_)
      (fun arena range inside => inside)).imp fun range now result => ?_)
    · simp [Part.expand?, list, Function.comp_def]
    · exact result.1.close rfl (by simp) rfl (by rw [isFirst])

/-- The first value of a class variable. -/
theorem reads_classVariable (deepens : grammar.Deepens soft rounds) (name : Name) :
    (grammar.classVariable name).ReadsWhen soft rounds (fun kind => kind = .classVariable name)
      fun id => [.node .member id] := by
  intro start tokens ready same
  have notEnd : start.cursor.isAtEnd = false :=
    notAtEnd (congrArg TokenKind.tag same) Tag.noConfusion
  unfold Grammar.classVariable
  refine .bind (((Reading.refl ready).advance_token notEnd same).imp
    fun first now ⟨read, isFirst, _⟩ => ?_)
  refine .bind ((read.expect .assign rfl _).imp fun _ now ⟨read, _⟩ => ?_)
  refine .bind ((read.andThen (reads_expression deepens)).imp fun value now read => ?_)
  exact read.close rfl (by simp) rfl (by rw [isFirst])

/-- A member of a class. -/
theorem reads_classMember (deepens : grammar.Deepens soft rounds) :
    grammar.classMember.Reads soft rounds fun id => [.node .member id] := by
  intro start tokens ready _
  have invalid : Grammar.invalidMember.Outcome start
      (fun id after => start.Reading soft rounds tokens [.node .member id] after)
      fun _ after => start.Strays soft rounds tokens after :=
    Parse.outcome_unexpected.mpr (.throw (Reading.refl ready).strays)
  unfold Grammar.classMember
  refine Parse.outcome_current.mpr ?_
  split
  · exact reads_method deepens (fun _ _ _ _ _ => rfl) start tokens ready trivial
  · exact reads_method deepens (fun _ _ _ _ _ => rfl) start tokens ready trivial
  · next name same => exact reads_classVariable deepens name start tokens ready same
  · next name same =>
    rw [deepens.sameSoft]
    split
    · next kind isAccessor =>
      exact reads_accessors deepens.sameRounds isAccessor start tokens ready same
    · exact invalid
  · exact invalid

/-- One round of a class body reads a member, or it ends the body. -/
theorem Gathers.memberStep {ids : Array NodeId} {count : Nat}
    (deepens : grammar.Deepens soft rounds)
    (gathers : start.Gathers soft rounds tokens parts taken .member count ids now) :
    Build.Outcome (grammar.memberStep ids) now
      (Round (start.Gathers soft rounds tokens parts taken .member)
        (start.Gathered soft rounds tokens parts taken .member fun _ _ => True) count) := by
  obtain ⟨more, rest, run, rfl⟩ := gathers
  have ready := run.readyNow
  refine outcome_shouldHalt (fun halts => ?_) ?_
  · exact .bind ((run.abort (damaged_of_shouldHalt ready halts)).mono
      fun _ after gathered => .pure gathered)
  rw [if_neg Bool.false_ne_true]
  refine Build.outcome_currentTag.mpr ?_
  by_cases ends : (now.cursor.current.tag == .kwEnd ||
    now.cursor.current.tag == .endOfInput) = true
  · rw [if_pos ends]
    exact .pure (run.finish (fun _ _ => True) trivial)
  · rw [if_neg ends]
    have notEnd : now.cursor.isAtEnd = false := by
      rw [Bool.or_eq_true, not_or] at ends
      exact Bool.not_eq_true _ ▸ ends.2
    refine outcome_checkpoint.mpr (.bind (Build.Outcome.mono
      (reads_classMember deepens now rest ready trivial) fun result after holds => ?_))
    cases result with
    | ok id =>
      obtain ⟨item, left, next, _, some⟩ := holds
      exact .pure (run.push next (some (List.cons_ne_nil _ _)))
    | error error =>
      refine Strays.recover holds notEnd (fun _ => rfl) error
        (show Category.member.admits .error = true from rfl)
        fun id after ⟨item, left, next, _, filled⟩ => ?_
      exact .pure (run.push next (filled (List.cons_ne_nil _ _)))

/-- A reading goes on with the members of a class. -/
theorem Reading.classBody (reading : start.Reading soft rounds tokens parts now)
    (some : parts ≠ []) (deepens : grammar.Deepens soft rounds)
    {failure : ParseError → Parser → Prop} :
    Parse.Outcome (liftM grammar.classBody) now
      (fun ids after => start.Reading soft rounds tokens
        (parts ++ ids.toList.map (.node .member) ++ [.skipped]) after) failure := by
  obtain ⟨taken, rest, run, opens, filled⟩ := reading
  have gathers : start.Gathers soft rounds tokens parts taken .member (Consumes.weight rest)
      #[] now := ⟨[], rest, by simpa using run, rfl⟩
  have enough : Consumes.weight rest < grammar.rounds := by
    rw [deepens.sameRounds]
    exact run.readyNow.rounds
  have items := Build.Outcome.repeatWithin _
    (fun count ids parser gathers => Gathers.memberStep deepens gathers) enough gathers
  refine .lift (items.mono fun ids after ⟨more, left, read, _⟩ => ?_)
  exact ⟨taken ++ more, left, read, opens_of_ne_nil opens (filled some) more,
    fun _ => by simp [filled some]⟩

/-- A class declaration. -/
theorem reads_classDeclaration (deepens : grammar.Deepens soft rounds) :
    grammar.classDeclaration.ReadsAt soft rounds .kwClass fun id => [.node .statement id] := by
  intro start tokens ready opens
  unfold Grammar.classDeclaration
  refine .bind (((Reading.refl ready).advance_word opens rfl).imp
    fun opening now ⟨read, same, _⟩ => ?_)
  refine .bind ((read.expectConstant _).imp fun name now read => ?_)
  refine .bind ((read.classBody (by simp) deepens).imp fun members now read => ?_)
  have finish : ∀ now, start.Reading soft rounds tokens
      ([.word .kwClass, .token (.constant name)] ++ members.toList.map (.node .member) ++
        [.skipped]) now →
      Parse.Outcome
        (do
          let range ← Build.addList members
          expectEnd .kwClass opening.span .classBody
          Build.close (.classDeclaration name range) opening.span)
        now (fun id after => start.Reading soft rounds tokens [.node .statement id] after)
        fun _ after => start.Strays soft rounds tokens after := by
    intro now read
    refine .bind ((read.addListBefore (.nodes .member) (by simp) (fun arena range list => ?_)
      (fun arena range inside => inside)).imp fun range now read => ?_)
    · rw [Part.expand?, list]
    · refine .bind ((read.expectEnd _ _ _).imp fun _ now read => ?_)
      exact read.close rfl (by simp) rfl (by rw [same])
  dsimp only
  split
  · refine Parse.outcome_cursor.mpr (Parse.outcome_unexpected.mpr ?_)
    exact .bind (.lift ((read.report grammar _).mono fun _ now read => finish now read))
  · exact finish now read

end Parser

end Vibescript
