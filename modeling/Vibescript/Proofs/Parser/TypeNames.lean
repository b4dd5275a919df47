import Vibescript.Proofs.Parser.SoleStatement

/-!
# Types that may be missing

The lexer takes a question mark after a word as part of it, and a marked word is never reserved. A
type name splits the mark off again without asking whether the word is reserved. So a word marked
directly always names a type, whereas by itself or with a space before the mark it does so only if
it is an identifier or `nil`.
-/
namespace Vibescript

open Build Parse Grammar TokenKind

namespace Text

variable {text : List Char}

/-- The shape of a word in lower case: a letter in lower case or an underscore, and word
characters. -/
def IsLowerWord (text : List Char) : Prop :=
  ∃ first body, text = first :: body ∧ (first.isLower = true ∨ first = '_') ∧
    ∀ char ∈ body, Content.isWordChar char = true

/-- A word in lower case has the shape of an identifier. -/
theorem IsLowerWord.isIdentifier (word : IsLowerWord text) : IsIdentifier text := by
  obtain ⟨first, body, rfl, starts, words⟩ := word
  exact ⟨first, body, [], by rw [List.append_nil], starts, words, .inl rfl⟩

/-- A word in lower case with a question mark has the shape of an identifier. -/
theorem IsLowerWord.marked (word : IsLowerWord text) : IsIdentifier (text ++ ['?']) := by
  obtain ⟨first, body, rfl, starts, words⟩ := word
  exact ⟨first, body, ['?'], rfl, starts, words, .inr (.inl rfl)⟩

/-- A word in lower case does not end with a question mark. -/
theorem IsLowerWord.getLast?_ne (word : IsLowerWord text) : text.getLast? ≠ some '?' := by
  obtain ⟨first, body, rfl, starts, words⟩ := word
  intro last
  have isWord : Content.isWordChar '?' = true := by
    rcases List.mem_cons.mp (List.mem_of_getLast? last) with same | inside
    · exact same ▸ (Content.starts_lower starts).2
    · exact words _ inside
  contradiction

end Text

namespace TokenKind

variable {word : String}

/-- A word in lower case is an identifier or reserved. -/
theorem ofWord_lower (lower : Text.IsLowerWord word.toList) :
    ofWord word = .identifier word ∨ ∃ tag spelled, ofWord word = .fixed tag spelled := by
  obtain ⟨first, body, whole, starts, _⟩ := lower
  rcases ofWord_cases word with upper | same
  · unfold ofWord at upper
    rw [whole, if_neg (by simp [(Content.starts_lower starts).1])] at upper
    cases found : (keyword? word : Option (TokenKind String)) with
    | none =>
      rw [found] at upper
      contradiction
    | some kind =>
      obtain ⟨tag, _, made⟩ := Option.bind_eq_some_iff.mp found
      obtain ⟨spelled, rfl⟩ := of_ofTag? made
      rw [found] at upper
      contradiction
  · exact same

/-- No reserved word ends with a question mark. -/
theorem ofWord_marked (lower : Text.IsLowerWord word.toList) :
    ofWord (word ++ "?") = .identifier (word ++ "?") := by
  obtain ⟨first, body, whole, starts, _⟩ := lower
  have marked : (word ++ "?").toList = word.toList ++ ['?'] := String.toList_append
  have keywords : ∀ tag : Tag, tag.isKeyword = true → ∀ text ∈ tag.spelling?,
      text.toList.getLast? ≠ some '?' := by
    intro tag
    cases tag <;> decide
  have free : (keyword? (word ++ "?") : Option (TokenKind String)) = none :=
    Content.keyword?_eq_none fun tag isKeyword spelled =>
      keywords tag isKeyword _ spelled (by rw [marked, List.getLast?_concat])
  rw [ofWord, marked, whole, free]
  simp [(Content.starts_lower starts).1]

end TokenKind

/-- A word by itself names a type: an identifier, or `nil`. -/
def Text.NamesType (word : String) : Prop := ofWord word = .identifier word ∨ word = "nil"

/-- The word of a type, as names are held. -/
def TypeReference.Spells (names : NameTable) (word : String) : TypeReference → Prop
  | .named name => names.Spells name word
  | .nil => word = "nil"

/-- The text of a type name. -/
def typeText (word : String) (isNilable : Bool) : String :=
  SyntaxTree.shown "type_name" [word ++ (if isNilable then "?" else "")] []

/-- The text of a parameter with a type of one name. -/
def parameterText (name type : String) : String :=
  SyntaxTree.shown "typed_parameter" [name] [" type: " ++
    SyntaxTree.shown "type_annotation" [] [Agreement.listText "types" [type]]]

/-- The text of a parameter list of one parameter with a type of one name. -/
def parametersText (name type : String) : String :=
  SyntaxTree.shown "parameters" [] [Agreement.listText "params" [parameterText name type]]

namespace Parser

variable {soft : SoftNames} {rounds : Nat} {start now : Parser} {grammar : Grammar}
  {rest : List (TokenKind String)} {word : String} {kind : TokenKind String}

/-- The word of a type is stepped over, and a mark after it. -/
theorem succeeds_markType (reference : TypeReference) {isFolded : Bool} (spaced : Bool) {span : Span}
    (spells : reference.Spells now.forest.names word) (ends : tagAt rest 0 ≠ .question)
    (faces : now.Faces soft rounds (kind :: ((if spaced then [.fixed .question] else []) ++ rest))) :
    Succeeds soft rounds
      (do
        let _ ← Build.advance
        let isMarkedAfter ← Build.eat .question
        Build.close (.typeName reference (isFolded || isMarkedAfter)) span)
      now rest fun id forest => forest.Displays id (typeText word (isFolded || spaced)) := by
  have closes (later : Parser) (goes : now.Goes later) (faces : later.Faces soft rounds rest) :
      Succeeds soft rounds (liftM (Build.close (.typeName reference (isFolded || spaced)) span))
        later rest fun id forest => forest.Displays id (typeText word (isFolded || spaced)) := by
    refine succeeds_shown faces nofun (fun after grows root => ?_) .nil
    have names := goes.forest.names.trans grows.names
    cases reference with
    | named name => exact congrArg (fun text => [text ++ _]) (spells.mono names).2
    | nil => exact congrArg (fun text => [text ++ _]) (show "nil" = word from spells.symm)
  refine .bind (succeeds_advance faces) fun _ stepped steps faces _ => ?_
  cases spaced with
  | true =>
    refine .bind (succeeds_eat faces) fun isMarked later goes faces yes => ?_
    rw [yes]
    exact closes later (steps.trans goes) faces
  | false =>
    refine .bind (succeeds_eat_none faces ends) fun isMarked later goes faces no => ?_
    rw [no]
    exact closes later (steps.trans goes) faces

/-- The type that a name with its mark names is found. -/
theorem succeeds_namedType_marked {name : Name} {kinds : List (TokenKind String)}
    (faces : now.Faces soft rounds kinds)
    (spells : now.forest.names.Spells name (word ++ "?")) :
    Succeeds soft rounds (liftM (Grammar.namedType name)) now kinds fun found forest =>
      found.1.Spells forest.names word ∧ found.2 = true := by
  have text : (now.cursor.nameText name).toList = word.toList ++ ['?'] :=
    (congrArg String.toList spells.2).trans String.toList_append
  have last : (now.cursor.nameText name).toList.getLast? = some '?' := by
    rw [text, List.getLast?_concat]
  have base : String.ofList (now.cursor.nameText name).toList.dropLast = word := by
    rw [text, List.dropLast_concat, String.ofList_toList]
  refine .lift (Build.outcome_cursor.mpr ?_)
  dsimp only
  rw [if_pos last, base]
  split
  · next isNil => exact .pure ⟨.refl now, faces, isNil, rfl⟩
  · have interned : (Build.intern word).Outcome now fun name after =>
        now.Goes after ∧ after.Faces soft rounds kinds ∧ after.forest.names.Spells name word :=
      succeeds_intern faces word
    exact .bind (interned.mono fun name after ⟨goes, more, known⟩ => .pure ⟨goes, more, known, rfl⟩)

/-- The type that a name without a mark names is found. -/
theorem succeeds_namedType_plain {name : Name} {kinds : List (TokenKind String)}
    (faces : now.Faces soft rounds kinds) (spells : now.forest.names.Spells name word)
    (plain : word.toList.getLast? ≠ some '?') :
    Succeeds soft rounds (liftM (Grammar.namedType name)) now kinds fun found forest =>
      found.1.Spells forest.names word ∧ found.2 = false := by
  have last : ¬(now.cursor.nameText name).toList.getLast? = some '?' := by
    rw [show now.cursor.nameText name = word from spells.2]
    exact plain
  refine .lift (Build.outcome_cursor.mpr ?_)
  dsimp only
  rw [if_neg last]
  exact .pure ⟨.refl now, faces, spells, rfl⟩

/-- A word with its mark names a type that may be missing, reserved or not. -/
theorem succeeds_typeName_marked (ends : tagAt rest 0 ≠ .question)
    (faces : now.Faces soft rounds (.identifier (word ++ "?") :: rest)) :
    Grammar.typeName.Succeeds soft rounds now rest fun id forest =>
      forest.Displays id (typeText word true) := by
  obtain ⟨name, isName, spells⟩ := faces.identifier
  unfold Grammar.typeName
  refine succeeds_current.mpr ?_
  dsimp only
  rw [isName]
  refine .bind (succeeds_namedType_marked faces spells)
    fun (reference, isFolded) later _ faces known => ?_
  obtain ⟨refers, rfl⟩ := known
  exact succeeds_markType reference false refers ends faces

/-- A word by itself, or with a mark after a space, names a type unless it is reserved. -/
theorem decides_typeName (lower : Text.IsLowerWord word.toList) (spaced : Bool)
    (ends : tagAt rest 0 ≠ .question)
    (faces : now.Faces soft rounds
      (ofWord word :: ((if spaced then [.fixed .question] else []) ++ rest))) :
    Grammar.typeName.Decides (Text.NamesType word) soft rounds now rest fun id forest =>
      forest.Displays id (typeText word spaced) := by
  unfold Grammar.typeName
  refine decides_current.mpr ?_
  dsimp only
  rcases ofWord_lower lower with free | ⟨tag, spelled, reserved⟩
  · rw [free] at faces
    obtain ⟨name, isName, spells⟩ := faces.identifier
    rw [isName]
    refine Succeeds.decides ?_ (show Text.NamesType word from .inl free)
    refine .bind (succeeds_namedType_plain faces spells lower.getLast?_ne)
      fun (reference, isFolded) later _ faces known => ?_
    obtain ⟨refers, rfl⟩ := known
    exact succeeds_markType reference spaced refers ends faces
  · rw [reserved] at faces
    obtain ⟨isKeyword, spelling⟩ := of_ofWord_fixed reserved
    have isKind : now.cursor.current.kind = .fixed tag spelled :=
      eq_fixed faces.tag spelled
    rw [isKind]
    by_cases isNil : tag = .kwNil
    · subst isNil
      have nil : word = "nil" := (Option.some.inj spelling).symm
      exact Succeeds.decides (succeeds_markType .nil spaced nil ends faces) (.inr nil)
    · have other : ¬Text.NamesType word := by
        rintro (free | rfl)
        · rw [free] at reserved
          contradiction
        · have isTag : ofWord "nil" = .fixed .kwNil := by decide +kernel
          rw [isTag] at reserved
          exact isNil (TokenKind.fixed.inj reserved).symm
      split
      · next same => contradiction
      · next same => contradiction
      · next same => exact absurd (TokenKind.fixed.inj same) isNil
      · exact Parse.outcome_unexpected.mpr (.bind (.throw other))

/-- A name with a colon starts a parameter with a type. -/
theorem succeeds_askParameter {name : String}
    (faces : now.Faces soft rounds (.identifier name :: .fixed .colon :: rest)) :
    Succeeds soft rounds (liftM Build.askParameter?) now
      (.identifier name :: .fixed .colon :: rest) fun shape _ => shape = some .typed := by
  obtain ⟨tokens, ready, same⟩ := faces
  have tells : Lookahead.parameter?.Tells now.cursor.source tokens soft.spelling
      fun shape => shape = some .typed := by
    refine .bind ((Lookahead.tells_tag 0).mono fun first isFirst => ?_)
    rw [isFirst, same]
    refine .bind ((Lookahead.tells_tag 1).mono fun second isSecond => ?_)
    rw [isSecond, same]
    exact .pure rfl
  obtain ⟨looks, holds⟩ := tells now.cursor rfl ready.pending ready.soft
  have passes := Passes.of_moves looks.moves
  exact .lift (outcome_onCursor.mpr ⟨⟨passes.forest, rfl, rfl⟩,
    ⟨tokens, passes.ready ready, same⟩, holds⟩)

/-- The name of a method. -/
theorem succeeds_methodName {name : String}
    (faces : now.Faces soft rounds (.identifier name :: rest)) :
    Grammar.methodName.Succeeds soft rounds now rest fun found forest =>
      found.isSingleton = false ∧ forest.names.Spells found.name name := by
  unfold Grammar.methodName
  have noSelf : Succeeds soft rounds (liftM (Build.ask Lookahead.isSelfQualifier)) now
      (.identifier name :: rest) fun answer _ => answer = false := by
    refine succeeds_ask faces fun tokens ready same => ?_
    refine (Lookahead.tells_isSelfQualifier).mono fun answer tells => Bool.eq_false_iff.mpr
      fun yes => ?_
    have isSelf := (tells yes).1
    rw [same] at isSelf
    contradiction
  refine .bind noSelf fun isSingleton asked asks faces no => ?_
  rw [no]
  refine .bind (succeeds_expectIdentifier faces _)
    fun (word, _) named _ faces ⟨holds, reads, _⟩ => ?_
  exact .pure faces ⟨rfl, holds, reads⟩

/-- After its parameter list, a method without statements is read to its end. -/
theorem succeeds_emptyMethod {tokens : List (Token String)} {parts : List Part}
    (reading : start.Reading soft rounds tokens parts now) (sameRounds : grammar.rounds = rounds)
    (undamaged : ¬ now.forest.isDamaged)
    (plain : ∀ token ∈ tokens, token.kind.isDirective = false)
    (faces : now.Faces soft rounds [.fixed .kwEnd]) {found : MethodName} {method : String}
    (isPlain : found.isSingleton = false) (spells : now.forest.names.Spells found.name method)
    {inputs : NodeId} {text : String} (displays : now.forest.Displays inputs text)
    (opening span : Span) :
    Succeeds soft rounds
      (do
        let body ← grammar.body .blockEnd
        expectEnd .kwDef opening .method
        Build.close (.method false found (some inputs) none body) span)
      now [] fun id forest =>
        forest.Displays id (SyntaxTree.shown "method" [method] [" parameters: " ++ text, ""]) := by
  refine .bind (reading.succeeds_emptyBody sameRounds undamaged plain faces (by decide))
    fun body read reads faces ⟨inside, empty⟩ => ?_
  refine .bind (succeeds_expectEnd faces _ _ _) fun _ ended ends faces _ => ?_
  have further := (reads.trans ends).forest
  have shows := Agreement.fieldShows_node (displays.mono further) "parameters"
  have bare := Agreement.fieldShows_list (ends.forest.arena.contains inside)
    (show List.Forall₂ _ _ [] by rw [ends.forest.arena.list inside, empty]; exact .nil) "body"
  refine succeeds_shown faces nofun (fun after grows root => ?_) (.cons shows (.cons bare .nil))
  have spelled := spells.mono (further.trans grows).names
  rw [SyntaxTree.attributes, isPlain]
  exact congrArg (fun text => [text]) ((String.empty_append).trans spelled.2)

section

variable {accepts : Prop} {types : List (TokenKind String)} {text : String}
  (names : ∀ now : Parser, now.Faces soft rounds (types ++ .fixed .rightParen :: rest) →
    Grammar.typeName.Decides accepts soft rounds now (.fixed .rightParen :: rest)
      fun id forest => forest.Displays id text)
include names

/-- One type is a type. -/
theorem decides_typeUnion (sameRounds : grammar.rounds = rounds)
    (faces : now.Faces soft rounds (types ++ .fixed .rightParen :: rest)) :
    grammar.typeUnion.Decides accepts soft rounds now (.fixed .rightParen :: rest)
      fun id forest => forest.Displays id
        (SyntaxTree.shown "type_annotation" [] [Agreement.listText "types" [text]]) := by
  obtain ⟨count, enough⟩ : ∃ count, grammar.rounds = count + 1 :=
    ⟨rounds - 1, by have := faces.length_lt; omega⟩
  have single : (grammar.oneOrMore .bar Grammar.typeName).Decides accepts soft rounds now
      (.fixed .rightParen :: rest) fun ids forest => ∃ id, ids = #[id] ∧ forest.Displays id text := by
    rw [oneOrMore, loop, enough]
    refine decides_done (.bind (names now faces) fun _ id later _ faces displays => ?_)
    refine .bind (succeeds_eat_none faces Tag.noConfusion) fun eaten last goes faces isEaten => ?_
    rw [isEaten]
    exact .pure faces ⟨#[id], rfl, id, rfl, displays.mono goes.forest⟩
  unfold Grammar.typeUnion
  refine decides_current.mpr ?_
  refine .bind single fun _ ids read reads faces sole => ?_
  obtain ⟨id, isSingle, displays⟩ := sole
  rw [isSingle]
  refine .bind (succeeds_soleList faces displays) fun range later _ faces shows => ?_
  exact succeeds_shown faces (fun _ => NodeKind.noConfusion) (fun _ _ _ => rfl)
    (.cons (shows "types") .nil)

/-- A parameter with one type. -/
theorem decides_parameter {name : String} (sameRounds : grammar.rounds = rounds)
    (faces : now.Faces soft rounds
      (.identifier name :: .fixed .colon :: (types ++ .fixed .rightParen :: rest))) :
    grammar.parameter.Decides accepts soft rounds now (.fixed .rightParen :: rest)
      fun id forest => forest.Displays id (parameterText name text) := by
  unfold Grammar.parameter
  refine (succeeds_askParameter faces).bindDecides fun shape asked asks faces isTyped => ?_
  rw [isTyped]
  dsimp only
  unfold Grammar.parameterOf
  obtain ⟨word, isName, spells⟩ := faces.identifier
  refine (succeeds_advance faces).bindDecides fun token named steps faces ⟨isToken, _⟩ => ?_
  rw [isToken, isName]
  refine Succeeds.bindDecides (succeeds_splitSymbol faces Tag.noConfusion)
    fun _ split splits faces _ => ?_
  refine (succeeds_expect faces _).bindDecides fun _ colon colons faces _ => ?_
  refine .bind (decides_typeUnion names sameRounds faces) fun _ type read reads faces shows => ?_
  have noDefault : grammar.default?.Succeeds soft rounds read (.fixed .rightParen :: rest)
      fun default _ => default = none := by
    unfold Grammar.default?
    refine .bind (succeeds_eat_none faces Tag.noConfusion) fun eaten last _ faces isEaten => ?_
    rw [isEaten]
    exact .pure faces rfl
  refine .bind noDefault fun default last goes faces isNone => ?_
  rw [isNone]
  have further := (((steps.trans splits).trans colons).trans reads).trans goes
  refine succeeds_shown faces nofun (fun after grows root => ?_)
    (.cons (Agreement.fieldShows_node (shows.mono goes.forest) "type") .nil)
  exact congrArg (fun text => [text]) (spells.mono (further.forest.names.trans grows.names)).2

/-- A parameter list of one parameter with one type. -/
theorem decides_parameters {name : String} (sameRounds : grammar.rounds = rounds)
    (faces : now.Faces soft rounds (.fixed .leftParen :: .identifier name :: .fixed .colon ::
      (types ++ .fixed .rightParen :: rest))) :
    grammar.parameters.Decides accepts soft rounds now rest fun id forest =>
      forest.Displays id (parametersText name text) := by
  unfold Grammar.parameters
  refine (succeeds_expect faces _).bindDecides fun _ opened _ faces _ => ?_
  refine .bind (decides_soleItem sameRounds Tag.noConfusion Tag.noConfusion faces
    (decides_parameter names sameRounds faces)) fun _ ids read _ faces ⟨id, isSole, displays⟩ => ?_
  refine .bind (succeeds_expectCloser faces _ _) fun _ closed closes faces _ => ?_
  rw [isSole]
  refine .bind (succeeds_soleList faces (displays.mono closes.forest))
    fun range later _ faces shows => ?_
  exact succeeds_shown faces nofun (fun _ _ _ => rfl) (.cons (shows "params") .nil)

/-- A method of one parameter with one type, and without statements. -/
theorem decides_method {tokens : List (Token String)} (deepens : grammar.Deepens soft rounds)
    (ready : now.Ready soft rounds tokens)
    (plain : ∀ token ∈ tokens, token.kind.isDirective = false)
    (faults : now.cursor.lexer.faults = []) (errors : now.errors = #[]) {method name : String}
    (ends : rest = [.fixed .kwEnd])
    (kinds : Token.kinds tokens = .fixed .kwDef :: .identifier method :: .fixed .leftParen ::
      .identifier name :: .fixed .colon :: (types ++ .fixed .rightParen :: rest)) :
    grammar.method.Decides accepts soft rounds now [] fun id forest =>
      forest.Displays id (SyntaxTree.shown "method" [method]
        [" parameters: " ++ parametersText name text, ""]) := by
  subst ends
  have faces : now.Faces soft rounds _ := ⟨tokens, ready, kinds⟩
  unfold Grammar.method
  refine decides_current.mpr ?_
  -- No word makes the method private.
  have eats : Parse.Outcome (liftM (Build.eat .kwPrivate)) now _ fun _ _ => True :=
    (Reading.refl ready).eat .kwPrivate rfl
  refine (succeeds_eat_none faces Tag.noConfusion).along eats
    fun isPrivate first firsts faces isPlain result => ?_
  have read : now.Reading soft rounds tokens [] first := by
    rcases result with ⟨yes, _⟩ | ⟨_, rfl, _⟩
    · rw [isPlain] at yes
      contradiction
    · exact .refl ready
  refine (succeeds_expect faces _).along (read.expect .kwDef rfl _)
    fun opening second seconds faces _ ⟨read, _⟩ => ?_
  refine (succeeds_methodName faces).along read.methodName
    fun found third thirds faces ⟨plainName, spells⟩ read => ?_
  refine Parse.outcome_check.mpr ?_
  have opens : third.cursor.check .leftParen = true := faces.check_self
  dsimp only
  rw [if_pos opens]
  have params : (some <$> grammar.parameters).Decides accepts soft rounds third [.fixed .kwEnd]
      fun inputs forest => ∃ id, inputs = some id ∧
        forest.Displays id (parametersText name text) := by
    rw [map_eq_pure_bind]
    exact .bind (decides_parameters names deepens.sameRounds faces)
      fun _ id later _ faces displays => .pure faces ⟨id, rfl, displays⟩
  have reads : Parse.Outcome (some <$> grammar.parameters) third
      (fun _ after => ∃ parts, now.Reading soft rounds tokens parts after) fun _ _ => True :=
    .map ((read.andThen (reads_parameters deepens)).mono (fun _ _ read => ⟨_, read⟩)
      fun _ _ _ => trivial)
  refine params.along reads fun is inputs fourth fourths faces ⟨id, isSome, displays⟩ known => ?_
  obtain ⟨parts, read⟩ := known
  have eats : Parse.Outcome (liftM (Build.eat .arrow)) fourth _ fun _ _ => True :=
    read.eat .arrow rfl
  refine (succeeds_eat_none faces Tag.noConfusion).along eats
    fun arrow fifth fifths faces no result => ?_
  have read : now.Reading soft rounds tokens parts fifth := by
    rcases result with ⟨yes, _⟩ | ⟨_, rfl, _⟩
    · rw [no] at yes
      contradiction
    · exact read
  rw [no, isSome, isPlain]
  have goes := ((((firsts.trans seconds).trans thirds).trans fourths).trans fifths)
  have undamaged : ¬ fifth.forest.isDamaged := by
    obtain ⟨_, _, run, _⟩ := read
    exact run.undamaged faults (goes.errors.trans errors)
  have names := (fourths.trans fifths).forest.names
  have ended := succeeds_emptyMethod read deepens.sameRounds undamaged plain faces plainName
    (spells.mono names) (displays.mono fifths.forest) opening.span now.cursor.current.span
  refine .bind (.pure (ended.mono (fun _ _ ⟨more, known⟩ => ⟨is, goes.trans more, known⟩)
    fun _ _ => False.elim))

/-- A statement that is a method of one parameter with one type. -/
theorem decides_methodStatement {tokens : List (Token String)} (deepens : grammar.Deepens soft rounds)
    (ready : now.Ready soft rounds tokens)
    (plain : ∀ token ∈ tokens, token.kind.isDirective = false)
    (faults : now.cursor.lexer.faults = []) (errors : now.errors = #[]) {method name : String}
    (ends : rest = [.fixed .kwEnd])
    (kinds : Token.kinds tokens = .fixed .kwDef :: .identifier method :: .fixed .leftParen ::
      .identifier name :: .fixed .colon :: (types ++ .fixed .rightParen :: rest)) :
    grammar.statement.Decides accepts soft rounds now [] fun id forest =>
      forest.Displays id (SyntaxTree.shown "method" [method]
        [" parameters: " ++ parametersText name text, ""]) := by
  have first : now.cursor.current.tag = .kwDef := by
    rw [ready.pending.tag, kinds]
    rfl
  unfold Grammar.statement
  refine Parse.outcome_currentTag.mpr ?_
  rw [first]
  exact decides_method names deepens ready plain faults errors ends kinds

end

end Parser

/-- A method with one parameter of a type. -/
def signature (type : String) : String := "def f(x: " ++ type ++ ") end"

/-- The program of a method with one parameter whose type is one name. -/
def signatureText (type : String) : String :=
  "(program (method f parameters: (parameters params: " ++
    "[(typed_parameter x type: (type_annotation types: [(type_name " ++ type ++ ")]))])))"

namespace Piece.Reads

/-- What stands after the type of a signature. -/
theorem signatureEnd {operand : Bool} : Reads operand ") end".toList
    [.token (.fixed .rightParen), .blank, .token (.fixed .kwEnd)] := by
  have ends : Reads false "end".toList ([TokenKind.fixed .kwEnd].map Content.token) :=
    .lexeme (isLexeme_spelling .kwEnd rfl)
  exact .mark (by decide) (by decide +kernel) rfl
    (.space (fun _ same => Option.some.inj same ▸ rfl) ends)

/-- A signature around its type. -/
theorem signature {type : List Char} {contents : List Content}
    (solid : ∀ first ∈ (type ++ ") end".toList).head?, Text.isSeparator first = false)
    (more : Reads false (type ++ ") end".toList) contents) :
    Reads false (['d', 'e', 'f', ' ', 'f', '(', 'x', ':', ' '] ++ (type ++ ") end".toList))
      (.token (.fixed .kwDef) :: .blank :: .token (.identifier "f") :: .token (.fixed .leftParen) ::
        .token (.identifier "x") :: .token (.fixed .colon) :: .blank :: contents) := by
  have name {first : Char} {body : List Char} (starts : first.isLower = true)
      (words : ∀ char ∈ body, Content.isWordChar char = true) :
      Text.IsIdentifier (first :: body) ∨ Text.IsConstant (first :: body) :=
    .inl ⟨first, body, [], by rw [List.append_nil], .inl starts, words, .inl rfl⟩
  have parameter := @token false ':' ['x'] _ _ (.identifier "x") (name rfl nofun) (by decide +kernel)
    rfl (.colon (.space solid more))
  have method := @token false '(' ['f'] _ _ (.identifier "f") (name rfl nofun) (by decide +kernel)
    rfl (@mark true false '(' _ _ (.fixed .leftParen) (by decide) (by decide +kernel) rfl parameter)
  exact @token false ' ' ['d', 'e', 'f'] _ _ (.fixed .kwDef) (name rfl (List.all_eq_true.mp rfl))
    (by decide +kernel) rfl (.space (fun _ same => Option.some.inj same ▸ rfl) method)

end Piece.Reads

/-- A signature is its tokens, with those of its type among them. -/
theorem isCode_signature {type : String} {contents : List Content}
    {types : List (TokenKind String)}
    (solid : ∀ first ∈ (type.toList ++ ") end".toList).head?, Text.isSeparator first = false)
    (more : Piece.Reads false (type.toList ++ ") end".toList)
      (contents ++ [.token (.fixed .rightParen), .blank, .token (.fixed .kwEnd)]))
    (spaced : contents.filter (· ≠ .blank) = types.map .token)
    (plain : ∀ kind ∈ types, kind.isDirective = false) :
    Text.IsCode (signature type).toList (.fixed .kwDef :: .identifier "f" :: .fixed .leftParen ::
      .identifier "x" :: .fixed .colon :: (types ++ [.fixed .rightParen, .fixed .kwEnd])) := by
  have whole : (signature type).toList =
      ['d', 'e', 'f', ' ', 'f', '(', 'x', ':', ' '] ++ (type.toList ++ ") end".toList) := by
    rw [signature, String.toList_append, String.toList_append, List.append_assoc]
    rfl
  rw [whole]
  refine (Piece.Reads.signature solid more).isCode ?_ ?_
  · simp only [ne_eq, decide_not] at spaced
    simp [List.filter_append, spaced]
  · simpa [or_imp, forall_and, TokenKind.isDirective] using plain

section

variable {options : ParseOptions} {accepts : Prop} {type text : String}

/-- The text of a method with one parameter whose type is one name. -/
theorem signatureText_eq (word : String) (isNilable : Bool) :
    "(program " ++ SyntaxTree.shown "method" ["f"]
        [" parameters: " ++ parametersText "x" (typeText word isNilable), ""] ++ ")" =
      signatureText (word ++ if isNilable then "?" else "") := by
  unfold parametersText parameterText typeText signatureText
  generalize (word ++ if isNilable then "?" else "") = type
  have front : "(program (method f parameters: (parameters params: " ++
      "[(typed_parameter x type: (type_annotation types: [(type_name " =
      "(program " ++ ("(" ++ "method" ++ " " ++ "f" ++ " parameters: ") ++
        ("(" ++ "parameters" ++ " " ++ "params" ++ ": [") ++
        ("(" ++ "typed_parameter" ++ " " ++ "x" ++ " type: ") ++
        ("(" ++ "type_annotation" ++ " " ++ "types" ++ ": [") ++ ("(" ++ "type_name" ++ " ") := by
    decide +kernel
  have ends : ")]))])))" = ")" ++ ("]" ++ ")" ++ ")") ++ ("]" ++ ")" ++ ")") ++ ")" := by
    decide +kernel
  rw [front, ends]
  simp only [SyntaxTree.shown, Agreement.listText, List.map_cons, List.map_nil, String.join_cons,
    String.join_nil, String.append_empty, String.append_assoc, toString,
    String.intercalate_singleton]

/-- What a signature is read as follows from what its type is. -/
theorem decides_signature (deep : 0 < options.maxDepth) (types : List (TokenKind String))
    (code : Text.IsCode (signature type).toList (.fixed .kwDef :: .identifier "f" ::
      .fixed .leftParen :: .identifier "x" :: .fixed .colon ::
        (types ++ [.fixed .rightParen, .fixed .kwEnd])))
    (names : ∀ soft now, now.Faces soft (Parser.rounds (signature type))
        (types ++ [.fixed .rightParen, .fixed .kwEnd]) →
      Grammar.typeName.Decides accepts soft (Parser.rounds (signature type)) now
        [.fixed .rightParen, .fixed .kwEnd] fun id forest => forest.Displays id text) :
    ((parseWith options (signature type)).errors = [] ↔ accepts) ∧
      (accepts → (parseWith options (signature type)).tree.toSexp = "(program " ++
        SyntaxTree.shown "method" ["f"] [" parameters: " ++ parametersText "x" text, ""] ++ ")") := by
  obtain ⟨levels, enough⟩ : ∃ levels, options.maxDepth = levels + 1 :=
    ⟨options.maxDepth - 1, by omega⟩
  obtain ⟨errors, shows⟩ := decides_parseWith code (List.cons_ne_nil _ _) enough
    fun soft start begins => Parser.decides_methodStatement (names soft)
      (Parser.deepens_descend options soft _ levels) begins.ready code.plain
      (begins.faults.trans code.faults) begins.errors rfl code.kinds_sourceTokens
  refine ⟨errors, fun is => ?_⟩
  obtain ⟨forest, id, length, displays, tree⟩ := shows is
  rw [tree, Forest.toSexp_sole displays]

end

/-- How a word is read as a type: by itself, with a question mark directly after it, and with a
space before the mark. -/
structure ReadsNilable (options : ParseOptions) (word : String) : Prop where
  /-- Marked directly, every word is a type that may be missing. -/
  marked : (parseWith options (signature (word ++ "?"))).errors = [] ∧
    (parseWith options (signature (word ++ "?"))).tree.toSexp = signatureText (word ++ "?")
  /-- By itself, only an identifier or `nil` is a type. -/
  plain : (parseWith options (signature word)).errors = [] ↔ Text.NamesType word
  /-- With a space before the mark, only an identifier or `nil` is a type. -/
  spaced : (parseWith options (signature (word ++ " ?"))).errors = [] ↔ Text.NamesType word
  /-- If it is a type, the marked ones are the same, and only the mark makes a difference. -/
  sexps : Text.NamesType word →
    (parseWith options (signature word)).tree.toSexp = signatureText word ∧
    (parseWith options (signature (word ++ " ?"))).tree.toSexp = signatureText (word ++ "?")

/-- A word marked directly is a type even if it is reserved; by itself, or with a space before the
mark, it is a type only if it is an identifier or `nil`. -/
theorem readsNilable_parseWith (options : ParseOptions) (deep : 0 < options.maxDepth)
    (word : String) (lower : Text.IsLowerWord word.toList) : ReadsNilable options word := by
  have isWord : String.ofList word.toList = word := String.ofList_toList
  -- By itself: the word is one token.
  have plainReads : Piece.Reads false (word.toList ++ ") end".toList)
      ([.token (ofWord word)] ++ [.token (.fixed .rightParen), .blank, .token (.fixed .kwEnd)]) :=
    @Piece.Reads.token false ')' word.toList " end".toList _ _ (.inl lower.isIdentifier)
      (congrArg ofWord isWord) rfl .signatureEnd
  obtain ⟨plain, plainText⟩ := decides_signature deep [ofWord word]
    (isCode_signature (Text.solid_name (.inl lower.isIdentifier) _) plainReads rfl
      (by simpa using isDirective_ofWord word))
    fun soft now faces => Parser.decides_typeName lower false Tag.noConfusion faces
  -- Marked directly: the word and its mark are one token, an identifier.
  have markedReads : Piece.Reads false ((word ++ "?").toList ++ ") end".toList)
      ([.token (.identifier (word ++ "?"))] ++
        [.token (.fixed .rightParen), .blank, .token (.fixed .kwEnd)]) :=
    @Piece.Reads.token false ')' (word ++ "?").toList " end".toList _ _
      (.inl (String.toList_append ▸ lower.marked))
      (String.ofList_toList.symm ▸ ofWord_marked lower) rfl .signatureEnd
  obtain ⟨marked, markedText⟩ := decides_signature deep [.identifier (word ++ "?")]
    (isCode_signature (Text.solid_name (.inl (String.toList_append ▸ lower.marked)) _) markedReads rfl
      (by simp [TokenKind.isDirective]))
    fun soft now faces =>
      (Parser.succeeds_typeName_marked Tag.noConfusion faces).decides trivial
  -- Marked after a space: the word and the mark are two tokens.
  have spacedReads : Piece.Reads false ((word ++ " ?").toList ++ ") end".toList)
      ([.token (ofWord word), .blank, .token (.fixed .question)] ++
        [.token (.fixed .rightParen), .blank, .token (.fixed .kwEnd)]) := by
    have mark := @Piece.Reads.mark false true '?' ") end".toList _ (.fixed .question) (by decide)
      (by decide +kernel) rfl .signatureEnd
    rw [String.toList_append, List.append_assoc]
    exact @Piece.Reads.token false ' ' word.toList ('?' :: ") end".toList) _ _
      (.inl lower.isIdentifier) (congrArg ofWord isWord) rfl
      (.space (fun _ same => Option.some.inj same ▸ rfl) mark)
  obtain ⟨spaced, spacedText⟩ := decides_signature deep [ofWord word, .fixed .question]
    (isCode_signature (by
        rw [String.toList_append, List.append_assoc]
        exact Text.solid_name (.inl lower.isIdentifier) _) spacedReads rfl
      (by simpa [TokenKind.isDirective] using isDirective_ofWord word))
    fun soft now faces => Parser.decides_typeName lower true Tag.noConfusion faces
  refine ⟨⟨marked.mpr trivial, ?_⟩, plain, spaced, fun names => ⟨?_, ?_⟩⟩
  · exact (markedText trivial).trans (signatureText_eq word true)
  · exact (plainText names).trans ((signatureText_eq word false).trans
      (congrArg signatureText String.append_empty))
  · exact (spacedText names).trans (signatureText_eq word true)

/-- The reserved word `if` names a type once it is marked, and only then. -/
theorem readsNilable_parseWith_if : 0 < ParseOptions.usual.maxDepth ∧
    Text.IsLowerWord "if".toList ∧ ¬Text.NamesType "if" ∧ ReadsNilable .usual "if" := by
  have lower : Text.IsLowerWord "if".toList := ⟨'i', ['f'], rfl, .inl rfl, List.all_eq_true.mp rfl⟩
  have reserved : ¬Text.NamesType "if" := by
    rintro (free | other)
    · exact absurd free (by decide +kernel)
    · exact absurd other (by decide)
  exact ⟨by decide, lower, reserved, readsNilable_parseWith .usual (by decide) "if" lower⟩

end Vibescript
