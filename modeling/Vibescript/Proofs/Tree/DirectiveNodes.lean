import Vibescript.Proofs.Source.DirectiveComments
import Vibescript.Proofs.Tree.Leaves

/-!
# What directive nodes say

The classifier of comments accepts exactly the two shapes of directive comments. The tokens of
directives are comments that it accepts, and they reach the tree as they are: so a version node has
the numbers that the classifier finds in the text under its span, and a uses node has the names.
-/
namespace Vibescript

namespace Content

open Directive (classify)

/-- Content that is a directive was read from a comment that declares it. -/
def Declares (text : List Char) : Content → Prop
  | token (.versionDirective major minor) => classify text = some (.version major minor)
  | token .usesDirective => ∃ names, classify text = some (.uses names)
  | _ => True

/-- A word declares nothing. -/
theorem declares_ofWord (word : String) (text : List Char) :
    (token (.ofWord word)).Declares text := by
  obtain same | same | ⟨_, _, same⟩ := TokenKind.ofWord_cases word <;> rw [same] <;> trivial

/-- A comment declares what the classifier finds in it. -/
theorem declares_hash (first : Char) (rest : List Char) :
    (hash first rest).1.Declares (first :: rest.take (hash first rest).2) := by
  simp only [hash, ← List.prefix_iff_eq_take.mp (List.takeWhile_prefix (· != '\n'))]
  split
  · next declared => exact declared
  · next names declared => exact ⟨names, declared⟩
  · trivial

/-- A mark declares nothing. -/
theorem declares_mark (first : Char) (rest text : List Char) :
    (mark first rest).1.Declares text := by
  obtain ⟨tag, spelled, same⟩ | same := mark_cases first rest <;> rw [same] <;> trivial

/-- A number declares nothing. -/
theorem declares_number (first : Char) (rest text : List Char) :
    (number first rest).1.Declares text := by
  have integer (digits : List Char) : (number.integer digits).1.Declares text := by
    simp only [number.integer]
    split <;> trivial
  simp only [number]
  split
  · split
    · trivial
    · exact integer _
  · exact integer _

/-- What is read in code declares what the classifier finds in its text. -/
theorem declares_inCode (before : Option Char) (first : Char) (rest : List Char) :
    (inCode before first rest).1.Declares (first :: rest.take (inCode before first rest).2) := by
  unfold inCode
  split
  · trivial
  split
  · exact declares_hash first rest
  split
  · rw [word_eq]
    exact declares_ofWord _ _
  split
  · exact declares_ofWord _ _
  split
  · exact declares_number first rest _
  split
  · trivial
  split
  · simp only [sigil]
    split
    · split <;> trivial
    · trivial
  split
  · unfold colon
    split <;> trivial
  · exact declares_mark first rest _

/-- What is read declares what the classifier finds in its text. -/
theorem declares_read (mode : Mode) (before : Option Char) (first : Char) (rest : List Char) :
    (read mode before first rest).1.Declares
      (first :: rest.take (read mode before first rest).2) := by
  cases mode with
  | code => exact declares_inCode before first rest
  | string =>
    simp only [read, inString]
    split
    · trivial
    split
    · split
      · trivial
      · split <;> trivial
    · trivial

end Content

namespace Token

/-- A token that is a directive covers a comment that declares it. -/
def Declares (source : List Char) (token : Token String) : Prop :=
  match token.kind with
  | .versionDirective major minor =>
    ∃ text, token.span.Covers source text ∧ Directive.classify text = some (.version major minor)
  | .usesDirective =>
    ∃ text names, token.span.Covers source text ∧ Directive.classify text = some (.uses names)
  | _ => True

/-- The halves of a symbol declare nothing. -/
theorem declares_halves (source : List Char) (name : String) (span : Span) :
    (colonOf span).Declares source ∧ (wordOf name span).Declares source := by
  refine ⟨trivial, ?_⟩
  unfold Declares wordOf
  obtain same | same | ⟨_, _, same⟩ := TokenKind.ofWord_cases name <;> rw [same] <;> trivial

end Token

namespace Piece

/-- Every piece declares what the classifier finds in its text. -/
theorem declares_of_mem {source : List Char} {piece : Piece} (member : piece ∈ list source) :
    piece.content.Declares piece.text :=
  forall_listFrom (fun text content => content.Declares text) Content.declares_read
    (fun _ => trivial) _ _ _ _ _ piece member

/-- Every token of a source text declares what the classifier finds in the text under its span. -/
theorem declares_of_mem_tokens {source : List Char} {token : Token String}
    (member : token ∈ tokens (list source)) : token.Declares source := by
  obtain ⟨piece, inside, read⟩ := List.mem_filterMap.mp member
  obtain ⟨kind, isKind, rfl⟩ := Option.map_eq_some_iff.mp read
  have declares := declares_of_mem inside
  have covers := covers_of_mem inside
  cases content : piece.content <;> rw [kind?, content] at isKind <;>
    simp only [Option.some.injEq, reduceCtorEq] at isKind <;> subst isKind <;>
    rw [content] at declares
  case token kind =>
    cases kind
    case versionDirective => exact ⟨piece.text, covers, declares⟩
    case usesDirective =>
      obtain ⟨names, declared⟩ := declares
      exact ⟨piece.text, names, covers, declared⟩
    all_goals exact trivial
  all_goals exact trivial

end Piece

/-- The one token of a uses directive has the span of the node. -/
theorem Forest.Spells.exists_directive {forest : Forest} {below : List NodeId}
    {own : List (Token String)} {span : Span} {range : NameRange}
    (spells : forest.Spells (NodeKind.usesDirective range).production below own)
    (hull : span.Hull own) : own = [⟨.usesDirective, span⟩] := by
  obtain ⟨_, _, tokens, others, -, rfl, first, second⟩ :=
    @split forest [.token .usesDirective] _ _ _ spells
  obtain rfl : others = [] := by
    cases second with
    | expand stands => simp [Part.expand?] at stands
    | write written more =>
      cases written
      cases more
      rfl
  rw [List.append_nil] at hull ⊢
  exact first.exists_leaf hull

/-- A directive node has the numbers or the names that the text under its span declares, and there
are some names. -/
def Node.Declares (source : String) (tree : SyntaxTree) (node : Node) : Prop :=
  match node.kind with
  | .versionDirective major minor => ∃ text, Text.slice? source.toList node.span = some text ∧
    Directive.classify text = some (.version major minor)
  | .usesDirective range => ∃ text, Text.slice? source.toList node.span = some text ∧
    Directive.classify text = some (.uses (tree.texts range)) ∧ tree.texts range ≠ []
  | _ => True

/-- The directive nodes of a tree say what the text under their spans declares. -/
def SyntaxTree.Declares (source : String) (tree : SyntaxTree) : Prop :=
  ∀ id node, tree.arena.node? id = some node → node.Declares source tree

namespace Parser

variable {source : String} {root : NodeId} {final : Parser} {body : NodeRange}
  {below : List NodeId} {taken rest : List (Token String)}

/-- The directive nodes of a program that was read say what the text declares. -/
theorem ReadsProgram.declaresNode (reads : ReadsProgram source root final body below taken rest)
    {id : NodeId} {node : Node} (found : final.arena.node? id = some node) :
    node.Declares source ⟨final.arena, final.cursor.lexer.names, root⟩ := by
  have isNode := Arena.mem_ids_of_node? found
  rw [reads.nodes] at isNode
  rcases List.mem_append.mp isNode with isBelow | root
  · obtain ⟨other, own, under, same, hull, inner, within⟩ := reads.spells.exists_own id isBelow
    obtain rfl : other = node := Option.some.inj (same.symm.trans found)
    have declares := reads.consumes.forall_taken (Token.Declares source.toList)
      (fun name span _ => Token.declares_halves source.toList name span)
      (fun _ => Piece.declares_of_mem_tokens)
    obtain ⟨kind, span⟩ := other
    cases kind
    case versionDirective major minor =>
      have single := @Forest.Spells.exists_leaf _ _ _ _ (.versionDirective major minor) inner hull
      obtain ⟨text, covers, declared⟩ :=
        declares _ (within.subset (single ▸ List.mem_cons_self))
      exact ⟨text, covers.slice?, declared⟩
    case usesDirective range =>
      have single := inner.exists_directive hull
      obtain ⟨text, names, covers, declared⟩ :=
        declares _ (within.subset (single ▸ List.mem_cons_self))
      obtain ⟨-, -, texts⟩ := reads.declares id isBelow range span found
      rw [Text.slice, covers.slice?, Option.getD_some, Directive.usesNames, declared] at texts
      obtain ⟨-, -, -, ⟨filled, -⟩, -⟩ := Directive.classify_eq_some_uses_iff.mp declared
      have same : SyntaxTree.texts ⟨final.arena, final.cursor.lexer.names, root⟩ range = names :=
        texts
      exact ⟨text, covers.slice?, same ▸ declared, same ▸ filled⟩
    all_goals exact trivial
  · obtain rfl := List.mem_singleton.mp root
    obtain rfl := Option.some.inj (reads.found.symm.trans found)
    exact trivial

end Parser

/-- The classifier of comments accepts exactly the two shapes of directives, and in every tree that
a parse returns the directive nodes say what it finds in the text under their spans: also when there
are errors, and wherever the nesting limit cuts the parse. -/
theorem declares_parseWith (comment : List Char) (options : ParseOptions) (source : String) :
    (∀ major minor, Directive.classify comment = some (.version major minor) ↔
      Directive.IsVersion comment major minor) ∧
    (∀ names, Directive.classify comment = some (.uses names) ↔
      Directive.IsUses comment names) ∧
    (Directive.classify comment = none ↔
      (∀ major minor, ¬ Directive.IsVersion comment major minor) ∧
        ∀ names, ¬ Directive.IsUses comment names) ∧
    (parseWith options source).tree.Declares source := by
  refine ⟨fun _ _ => Directive.classify_eq_some_version_iff,
    fun _ => Directive.classify_eq_some_uses_iff, Directive.classify_eq_none_iff, ?_⟩
  obtain ⟨body, below, taken, rest, reads⟩ := Parser.reads_run options source
  rw [parseWith_eq, Parser.tree_finish]
  generalize Parser.run options source = result at reads ⊢
  exact fun id node found => reads.declaresNode found

end Vibescript
