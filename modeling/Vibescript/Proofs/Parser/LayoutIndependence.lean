import Vibescript.Proofs.Parser.Alignment
import Vibescript.Proofs.Parser.ErrorOrder
import Vibescript.Proofs.Parser.Termination
import Vibescript.Tree.Printer

/-!
# Parsing depends on the layout only

Two texts whose tokens have the same layout are parsed by aligned parsers from their starts on. So
spaces, blank lines and ordinary comments decide neither the tree nor the errors, apart from places.
-/
namespace Vibescript

namespace ParseError

/-- Errors that differ in places only say the same. -/
theorem SameButPlace.message {left right : ParseError} (alike : left.SameButPlace right) :
    left.message = right.message := by
  rw [ParseError.message, ParseError.message, alike.fault, alike.found, alike.expected]

/-- Errors that differ in places only are of the same family. -/
theorem SameButPlace.isAboveTokens {left right : ParseError} (alike : left.SameButPlace right) :
    left.isAboveTokens = right.isAboveTokens := by
  rw [ParseError.isAboveTokens, ParseError.isAboveTokens, alike.code]

end ParseError

namespace Arena.SameKinds

variable {left right : Arena}

/-- The nodes with a number have the same kind. -/
theorem kind (same : left.SameKinds right) (id : NodeId) : left.kind id = right.kind id := by
  have found := congrArg (·[id.index]?) same.nodes
  simp only [Array.getElem?_map] at found
  exact congrArg (Option.getD · NodeKind.error) found

/-- The attributes of a node are shown in the same way. -/
theorem attributes (same : left.SameKinds right) (names : NameTable) (root other : NodeId)
    (kind : NodeKind) :
    SyntaxTree.attributes ⟨left, names, root⟩ kind =
      SyntaxTree.attributes ⟨right, names, other⟩ kind := by
  have texts (range : NameRange) : SyntaxTree.texts ⟨left, names, root⟩ range =
      SyntaxTree.texts ⟨right, names, other⟩ range := by
    show (left.nameList range).map names.text = (right.nameList range).map names.text
    rw [Arena.nameList, Arena.nameList, same.names]
  unfold SyntaxTree.attributes
  simp only [texts]
  rfl

/-- Trees that differ in spans only are shown in the same way, down to any depth. -/
theorem sexpWithin (same : left.SameKinds right) (names : NameTable) (root other : NodeId)
    (depth : Nat) (id : NodeId) :
    SyntaxTree.sexpWithin ⟨left, names, root⟩ depth id =
      SyntaxTree.sexpWithin ⟨right, names, other⟩ depth id := by
  induction depth generalizing id with
  | zero => rfl
  | succ depth ih =>
    have isKind : SyntaxTree.kind ⟨left, names, root⟩ id =
        SyntaxTree.kind ⟨right, names, other⟩ id := same.kind id
    have lists (range : NodeRange) : left.list range = right.list range := by
      rw [Arena.list, Arena.list, same.lists]
    have below := funext ih
    have field (name : String) (child : Child) :
        SyntaxTree.fieldText (SyntaxTree.sexpWithin ⟨left, names, root⟩ depth)
            ⟨left, names, root⟩ name child =
          SyntaxTree.fieldText (SyntaxTree.sexpWithin ⟨right, names, other⟩ depth)
            ⟨right, names, other⟩ name child := by
      cases child with
      | node child => rw [SyntaxTree.fieldText, SyntaxTree.fieldText, below]
      | list range => rw [SyntaxTree.fieldText, SyntaxTree.fieldText, below, lists]
    rw [SyntaxTree.sexpWithin, SyntaxTree.sexpWithin, isKind, same.attributes names root other]
    simp only [lists, ih, field]

/-- Trees that differ in spans only are shown in the same way. -/
theorem toSexp (same : left.SameKinds right) (names : NameTable) (root : NodeId) :
    SyntaxTree.toSexp ⟨left, names, root⟩ = SyntaxTree.toSexp ⟨right, names, root⟩ := by
  have sizes := congrArg Array.size same.nodes
  simp only [Array.size_map] at sizes
  show SyntaxTree.sexpWithin _ left.nodes.size root = SyntaxTree.sexpWithin _ right.nodes.size root
  rw [sizes]
  exact same.sexpWithin names root root _ root

end Arena.SameKinds

namespace Parser

variable {first second : String}

/-- Cursors start aligned at lexers with the same names and the same kinds of token. -/
theorem aligned_ofLexer {left right : Lexer} {tokens others : List (Token String)}
    (names : left.names = right.names)
    (kinds : (Piece.tokens left.pieces).map Token.kind = (Piece.tokens right.pieces).map Token.kind)
    (pending : (Cursor.ofLexer left).Pending tokens)
    (pendingOther : (Cursor.ofLexer right).Pending others)
    (follow : Token.Follow (Cursor.ofLexer left).source (Cursor.ofLexer right).source 0 0 tokens
      others) :
    (Cursor.ofLexer left).Aligned (Cursor.ofLexer right) := by
  have out := Cursor.handOut_pullIn left left.pieces
  rw [names, kinds, ← Cursor.handOut_pullIn right right.pieces] at out
  simp only [Prod.mk.injEq] at out
  obtain ⟨current, interned, unread⟩ := out
  exact ⟨⟨tokens, others, pending, pendingOther, follow⟩, current, rfl, unread, interned, rfl⟩

/-- Cursors start aligned at texts with the same layout. -/
theorem aligned_ofSource (same : Token.layout first = Token.layout second) :
    (Cursor.ofSource first).Aligned (Cursor.ofSource second) := by
  obtain ⟨pending, source, _⟩ := Cursor.start_ofSource first
  obtain ⟨pendingOther, other, _⟩ := Cursor.start_ofSource second
  have follow := Token.Follow.of_layout same
  refine aligned_ofLexer rfl follow.kinds pending pendingOther ?_
  show Token.Follow (Cursor.ofSource first).source (Cursor.ofSource second).source 0 0 _ _
  rw [source, other]
  exact follow

/-- The words that mean something in some places only are interned. -/
theorem interns_softNames (names : NameTable) : names.Interns (softNames names).2 := by
  rw [softNames]
  exact .intern (.intern (.intern (.intern (.intern .refl _) _) _) _) _

/-- Parsers start aligned at texts with the same layout. -/
theorem aligned_start (same : Token.layout first = Token.layout second) :
    (start first).1 = (start second).1 ∧ (start first).2.Aligned (start second).2 := by
  have aligned := aligned_ofSource same
  have cursor := aligned.intern (interns_softNames (Cursor.ofSource first).lexer.names)
  rw [start_eq, start_eq, ← aligned.names]
  generalize Cursor.ofSource first = left at *
  generalize Cursor.ofSource second = right at *
  exact ⟨rfl, cursor, ⟨rfl, rfl, rfl⟩, .nil, rfl⟩

/-- Texts with the same layout are read by aligned parsers up to the end. -/
theorem aligned_run (same : Token.layout first = Token.layout second) (limit : Nat) :
    (run (.recovering limit) first).1 = (run (.recovering limit) second).1 ∧
      (run (.recovering limit) first).2.Aligned (run (.recovering limit) second).2 := by
  obtain ⟨soft, aligned⟩ := aligned_start same
  have rounds (source : String) {more : Nat} (enough : Parser.rounds source ≤ more) :
      run (.recovering limit) source =
        (Grammar.outermost (.recovering limit) (start source).1 more).program (start source).2 := by
    rw [run_eq]
    exact (Grammar.program_steady _ _ enough (Nat.le_refl _) (begins_start source).calm).1.symm
  -- Both texts are read with as many rounds as the longer one needs.
  rw [rounds first (Nat.le_max_left _ (Parser.rounds second)),
    rounds second (Nat.le_max_right (Parser.rounds first) _), soft]
  exact (Grammar.matched_level limit _ _ limit).program _ _ aligned

end Parser

/-- Two results differ in places only, apart from the errors of the lexer. -/
structure ParseOutput.SameButPlaces (left right : ParseOutput) : Prop where
  /-- The trees are shown in the same way. -/
  sexp : left.tree.toSexp = right.tree.toSexp
  /-- The errors of the parser differ in places only. -/
  errors : List.Forall₂ ParseError.SameButPlace (left.errors.filter ParseError.isAboveTokens)
    (right.errors.filter ParseError.isAboveTokens)
  /-- The errors of the parser say the same. -/
  messages : (left.errors.filter ParseError.isAboveTokens).map ParseError.message =
    (right.errors.filter ParseError.isAboveTokens).map ParseError.message

/-- A parse depends on the tokens of a text and the line breaks between them only. -/
theorem sameButPlaces_parseWith (maxDepth : Nat) (first second : String)
    (same : Token.layout first = Token.layout second) :
    (parseWith ⟨maxDepth, .recover⟩ first).SameButPlaces
      (parseWith ⟨maxDepth, .recover⟩ second) := by
  obtain ⟨root, aligned⟩ := Parser.aligned_run same maxDepth
  have errors : List.Forall₂ ParseError.SameButPlace
      ((parseWith ⟨maxDepth, .recover⟩ first).errors.filter ParseError.isAboveTokens)
      ((parseWith ⟨maxDepth, .recover⟩ second).errors.filter ParseError.isAboveTokens) := by
    rw [filter_errors_parseWith, filter_errors_parseWith]
    generalize Parser.run _ first = left at *
    generalize Parser.run _ second = right at *
    exact List.rel_filter (fun _ _ alike => Bool.eq_iff_iff.mp alike.isAboveTokens) aligned.errors
  refine ⟨?_, errors, ?_⟩
  · rw [parseWith_eq, parseWith_eq, Parser.tree_finish, Parser.tree_finish, ← root,
      ← aligned.cursor.names]
    generalize Parser.run _ first = left at *
    generalize Parser.run _ second = right at *
    exact aligned.arena.toSexp _ _
  · rw [← List.forall₂_eq_eq_eq, List.forall₂_map_left_iff, List.forall₂_map_right_iff]
    exact errors.imp fun _ _ alike => alike.message

/-- Spaces, a blank line and a comment make no difference, between the tokens of a text with an error
as well. -/
theorem sameButPlaces_parseWith_comment :
    Token.layout "x = [1,\n 2 end" = Token.layout "x=[ 1 , # one\n\n2  end " ∧
      (parseWith ⟨8, .recover⟩ "x = [1,\n 2 end").SameButPlaces
        (parseWith ⟨8, .recover⟩ "x=[ 1 , # one\n\n2  end ") := by
  have same : Token.layout "x = [1,\n 2 end" = Token.layout "x=[ 1 , # one\n\n2  end " := by
    decide +kernel
  exact ⟨same, sameButPlaces_parseWith 8 _ _ same⟩

end Vibescript
