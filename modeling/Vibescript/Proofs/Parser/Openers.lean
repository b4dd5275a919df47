import Vibescript.Proofs.Parser.ErrorNodes
import Vibescript.Proofs.Parser.JustifiedErrors
import Vibescript.Proofs.Source.Spellings

/-!
# What the errors of a parse rest on

The errors of a whole parse are those of its grammar, which are justified, and those of the lexer,
which complain about no token. So an error does not list the token that it complains about as
acceptable, but for an identifier where a class member should start. And an unclosed block names the
keyword that opened it, at the place of that keyword in the text.
-/
namespace Vibescript

open Cursor

/-- A reserved word is described by itself, between backquotes. -/
theorem Tag.description_of_spelling? {tag : Tag} {word : String} (spelled : tag.spelling? = some word) :
    tag.description = s!"`{word}`" := by
  simp [Tag.description, spelled]

/-- The message about an unclosed block quotes the opener. -/
theorem ParseError.message_of_unclosed {error : ParseError} {opener : Tag} {word : String}
    (fault : error.fault = .unclosed opener) (spelled : opener.spelling? = some word) :
    let found := (error.found.map Tag.description).getD ""
    error.message = s!"expected `end` to close `{word}`, found {found}" := by
  rw [ParseError.message, fault]
  dsimp only
  rw [Tag.description_of_spelling? spelled]
  have quotes : "expected `end` to close `" = "expected `end` to close " ++ "`" := rfl
  have unquotes : "`, found " = "`" ++ ", found " := rfl
  rw [quotes, unquotes]
  simp only [toString, String.append_assoc]

/-- A tag that opens a block is a reserved word. -/
theorem Tag.exists_spelling?_of_opensBlock {tag : Tag} (opens : tag.opensBlock = true) :
    ∃ word, tag.spelling? = some word := by
  cases tag <;> first | contradiction | exact ⟨_, rfl⟩

namespace Token

variable {source : List Char} {token : Token String}

/-- What stems from a text is spelled as the text. -/
theorem Stems.isSpelled (stems : token.Stems source) : token.IsSpelled source := by
  rcases stems with member | ⟨name, span, member, rfl | rfl⟩
  · exact Piece.isSpelled_of_mem_tokens member
  · exact (isSpelled_halves (Piece.echoes_of_mem_tokens member)).1
  · exact (isSpelled_halves (Piece.echoes_of_mem_tokens member)).2

/-- What stems from a text echoes the text. -/
theorem Stems.echoes (stems : token.Stems source) : token.Echoes source := by
  rcases stems with member | ⟨name, span, member, rfl | rfl⟩
  · exact Piece.echoes_of_mem_tokens member
  · exact (Piece.echoes_of_mem_tokens member).halves.1
  · exact (Piece.echoes_of_mem_tokens member).halves.2

end Token

/-- The tokens of a source text are read from it. -/
theorem mem_written_lex {source : String} {token : Token String}
    (member : token ∈ Parser.sourceTokens source) : token ∈ (lex source).written := by
  rw [Parser.sourceTokens, ← filter_written_lex] at member
  exact List.mem_of_mem_filter member

/-- What an error node of a whole tree lies over is inside a node at or below its root. -/
theorem Arena.Excuses.exists_descendant {tree : SyntaxTree} {span : Span}
    (excuses : tree.arena.Excuses span) (whole : tree.IsWhole) :
    ∃ id ∈ tree.descendants, tree.kind id = .error ∧ span.Inside (tree.span id) := by
  obtain ⟨id, node, found, isError, inside⟩ := excuses
  refine ⟨id, (SyntaxTree.descendants_perm whole).mem_iff.mpr ?_,
    (Arena.kind_of_node? found).trans isError, ?_⟩
  · exact Arena.mem_ids_of_node? found
  · rw [SyntaxTree.span, Arena.span_of_node? found]
    exact inside

/-- A keyword that opens a block stands at a place of a source text: as a token, or as the name of a
symbol, whose colon is a token of its own to the grammar. -/
structure OpensAt (source : String) (opener : Tag) (word : String) (place : Span) : Prop where
  /-- The keyword opens a block. -/
  opens : opener.opensBlock = true
  /-- It is spelled so. -/
  spelled : opener.spelling? = some word
  /-- The text at the place is the keyword. -/
  text : Text.slice? source.toList place = some word.toList
  /-- The place is that of a token, or what follows the colon of a symbol. -/
  place : (∃ token ∈ (lex source).written, token.tag = opener ∧ token.span = place) ∨
    ∃ whole, ⟨.symbol word, whole⟩ ∈ (lex source).written ∧ place = ⟨whole.start + 1, whole.stop⟩

/-- An opener that stems from a source text stands at its place. -/
theorem OpensAt.of_stems {source : String} {token : Token String}
    (stems : token.Stems source.toList) (opens : token.tag.opensBlock = true) :
    ∃ word, OpensAt source token.tag word token.span := by
  obtain ⟨word, spelled⟩ := Tag.exists_spelling?_of_opensBlock opens
  refine ⟨word, opens, spelled, (stems.isSpelled word spelled).slice?, ?_⟩
  rcases stems with member | ⟨name, whole, member, rfl | rfl⟩
  · exact .inl ⟨token, mem_written_lex member, rfl, rfl⟩
  · contradiction
  · refine .inr ⟨whole, ?_, rfl⟩
    obtain same | same | ⟨tag, isWord, same⟩ := TokenKind.ofWord_cases name <;>
      rw [Token.wordOf, Token.tag, same] at opens spelled
    · contradiction
    · contradiction
    · have known := (TokenKind.of_ofWord_fixed same).2
      obtain rfl := Option.some.inj (known.symm.trans spelled)
      exact mem_written_lex member

namespace ParseError.Justified

variable {source : String} {tokens : List (Token String)} {error : ParseError}

/-- The token that a justified error complains about is not acceptable, but for an identifier where
a class member should start, which is no word of an accessor declaration. -/
theorem accessor (justified : error.Justified source.toList tokens) {tag : Tag}
    (isFound : error.found = some tag) (contains : error.expected.contains tag = true) :
    error.code = .invalidMember ∧ tag = .identifier ∧
      ∃ name : String, Text.slice? source.toList error.span = some name.toList ∧
        ∀ kind : AccessorKind, name ≠ kind.keyword := by
  obtain ⟨code, isIdentifier, name, stems, other⟩ := justified.found tag isFound contains
  exact ⟨code, isIdentifier, name, Span.Covers.slice? stems.echoes, other⟩

/-- A justified error about an unclosed block names its opener. -/
theorem opensAt (justified : error.Justified source.toList tokens)
    (stems : ∀ token ∈ tokens, token.Stems source.toList) (unclosed : error.code = .unclosedBlock) :
    ∃ opener word place, OpensAt source opener word place.span ∧ error.fault = .unclosed opener ∧
      error.related = some place ∧ place.span.stop ≤ error.span.start := by
  obtain ⟨token, member, opens, before, fault, related⟩ := justified.opener unclosed
  obtain ⟨word, stands⟩ := OpensAt.of_stems (stems token member) opens
  exact ⟨token.tag, word, _, stands, fault, related, before⟩

end ParseError.Justified

namespace Parser

/-- The reading of a source text reports justified errors only. -/
theorem Begins.proceeds {source : String} {soft : SoftNames} {start : Parser}
    (begins : Begins source soft start) (options : ParseOptions) :
    Build.Outcome (Grammar.outermost options soft (Parser.rounds source)).program start
      fun _ final => ∃ taken rest, start.Proceeds (sourceTokens source) taken rest final := by
  have prepared : start.Prepared soft (Parser.rounds source) [] (sourceTokens source) := by
    refine ⟨begins.ready, fun token member => ?_, List.forall_mem_nil _⟩
    rw [begins.text]
    exact .inl member
  have deeper := Grammar.justifiesDeeper_level options soft (Parser.rounds source) options.maxDepth
  have body : Grammar.JustifiesAny _ [] (liftM (Grammar.body _ .empty)) := .body deeper .empty
  refine .bind (Build.Outcome.mono (show Build.Outcome (Grammar.body _ .empty) start fun _ final =>
    ∃ taken rest, start.Proceeds (sourceTokens source) taken rest final ∧ True from
      body start _ prepared trivial) ?_)
  rintro body now ⟨taken, rest, proceeds, _⟩
  have grows := now.arena.grows_add (.program body) ⟨0, now.cursor.lexer.length⟩
  exact ⟨taken ++ [], rest, proceeds.trans ⟨.of_grows proceeds.passes.moves.pending grows,
    fun _ member => .inl member⟩⟩

/-- The errors that a parse reports are justified by tokens of its text, and what they say is left
open lies below an error node. -/
theorem justified_run (options : ParseOptions) (source : String) :
    ∃ tokens, (∀ token ∈ tokens, token.Stems source.toList) ∧
      ∀ error ∈ (run options source).2.errors.toList, error.Justified source.toList tokens ∧
        (error.code = .unclosedBlock → ∀ place ∈ error.related,
          (run options source).2.arena.Excuses place.span) := by
  have begins := begins_start source
  rw [run_eq]
  generalize Parser.start source = start at begins
  obtain ⟨taken, rest, proceeds⟩ := begins.proceeds options
  refine ⟨taken, ?_, fun error member => ?_⟩
  · exact proceeds.passes.moves.consumes.forall_taken (Token.Stems source.toList)
      (fun _ _ => Token.Stems.halves) fun token member => .inl member
  · have known := proceeds.errors error member
    rw [begins.errors, begins.text] at known
    exact known.resolve_left nofun

end Parser

/-- The errors of a parse are those of the lexer and those of the grammar. -/
theorem mem_errors_parseWith {options : ParseOptions} {source : String} {error : ParseError}
    (member : error ∈ (parseWith options source).errors) :
    (∃ fault, error = .ofLexical fault) ∨ error ∈ (Parser.run options source).2.errors.toList := by
  have inside : error ∈ (Piece.faults source.toList).map ParseError.ofLexical ++
      (Parser.run options source).2.errors.toList := by
    rw [Parser.errors_parseWith] at member
    refine ParseError.mem_sorted.mp ?_
    split at member
    · exact List.mem_of_mem_take member
    · exact member
  refine (List.mem_append.mp inside).imp_left fun lexical => ?_
  obtain ⟨fault, _, rfl⟩ := List.mem_map.mp lexical
  exact ⟨fault, rfl⟩

/-- An unclosed block names a keyword of the text that opened it, by its spelling and by its place:
the place ends where the error starts at the latest, and lies inside an error node of the tree. -/
theorem opener_parseWith (options : ParseOptions) (source : String) :
    ∀ error ∈ (parseWith options source).errors, error.code = .unclosedBlock →
      ∃ (opener : Tag) (word found : String) (place : RelatedPlace),
        OpensAt source opener word place.span ∧
        error.message = s!"expected `end` to close `{word}`, found {found}" ∧
        error.related = some place ∧ place.span.stop ≤ error.span.start ∧
        ∃ id ∈ (parseWith options source).tree.descendants,
          (parseWith options source).tree.kind id = .error ∧
            place.span.Inside ((parseWith options source).tree.span id) := by
  intro error member unclosed
  obtain ⟨fault, rfl⟩ | reported := mem_errors_parseWith member
  · cases fault with | mk fault span => cases fault <;> exact ErrorCode.noConfusion unclosed
  · obtain ⟨tokens, stems, justified⟩ := Parser.justified_run options source
    obtain ⟨justified, excused⟩ := justified error reported
    obtain ⟨opener, word, place, stands, fault, related, before⟩ := justified.opensAt stems unclosed
    refine ⟨opener, word, (error.found.map Tag.description).getD "", place, stands, ?_, related,
      before, ?_⟩
    · exact ParseError.message_of_unclosed fault stands.spelled
    · have same : (parseWith options source).tree.arena = (Parser.run options source).2.arena := by
        rw [parseWith_eq, Parser.tree_finish]
      have excuses := excused unclosed place related
      rw [← same] at excuses
      exact excuses.exists_descendant (isWhole_parseWith options source)

/-- An `if` that is left open. -/
theorem opener_parseWith_if :
    ∃ error ∈ (parseWith .usual "if x").errors, error.code = .unclosedBlock ∧
      ∃ opener word place, OpensAt "if x" opener word place ∧ place.stop ≤ error.span.start := by
  obtain ⟨error, member, unclosed⟩ : ∃ error ∈ (parseWith .usual "if x").errors,
      error.code = .unclosedBlock := by decide +kernel
  obtain ⟨opener, word, _, place, stands, _, _, before, _⟩ :=
    opener_parseWith .usual "if x" error member unclosed
  exact ⟨error, member, unclosed, opener, word, place.span, stands, before⟩

/-- The name of a symbol may open a block, and then the opener is no token of the text. -/
theorem not_token_symbol :
    ¬ ∀ error ∈ (parseWith .usual "f(k :if y").errors, error.code = .unclosedBlock →
      ∃ place ∈ error.related, ∃ token ∈ (lex "f(k :if y").written, token.span = place.span := by
  intro named
  obtain ⟨error, reported, unclosed, related⟩ :
      ∃ error ∈ (Parser.run .usual "f(k :if y").2.errors.toList,
        error.code = .unclosedBlock ∧ error.related = some ⟨⟨5, 7⟩, "`if` opened here"⟩ := by
    decide +kernel
  have member : error ∈ (parseWith .usual "f(k :if y").errors := by
    rw [Parser.errors_parseWith, if_neg (by nofun)]
    exact ParseError.mem_sorted.mpr (List.mem_append_right _ reported)
  obtain ⟨place, isPlace, token, inText, same⟩ := named error member unclosed
  rw [related] at isPlace
  obtain rfl := Option.mem_some.mp isPlace
  have elsewhere : ∀ token ∈ (lex "f(k :if y").written, token.span ≠ ⟨5, 7⟩ := by decide +kernel
  exact elsewhere token inText same

end Vibescript
