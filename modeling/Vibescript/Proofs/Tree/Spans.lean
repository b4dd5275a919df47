import Vibescript.Proofs.Cursor.Consumption
import Vibescript.Proofs.Parser.Program
import Vibescript.Proofs.Tree.Children

/-!
# Nested spans

The spans of a tree are read off the tokens it is written with: a child lies where some of the
tokens of its parent stand, and of two children the first ends before the second starts.
-/
namespace Vibescript

/-- One span lies inside another. -/
def Span.Inside (inner outer : Span) : Prop :=
  outer.start ≤ inner.start ∧ inner.stop ≤ outer.stop

instance (inner outer : Span) : Decidable (inner.Inside outer) :=
  inferInstanceAs (Decidable (_ ∧ _))

/-- The spans below a node are nested. -/
structure Arena.Nests (arena : Arena) (id : NodeId) : Prop where
  /-- The span is not reversed. -/
  ordered : (arena.span id).start ≤ (arena.span id).stop
  /-- The children lie inside it. -/
  inside : ∀ child ∈ arena.children id, (arena.span child).Inside (arena.span id)
  /-- The children follow each other and do not overlap. -/
  apart : (arena.children id).Pairwise fun left right =>
    (arena.span left).stop ≤ (arena.span right).start

/-- A span that starts and ends with some of the tokens. -/
def Span.Within (span : Span) (tokens : List (Token String)) : Prop :=
  ∃ first ∈ tokens, ∃ last ∈ tokens, span = ⟨first.span.start, last.span.stop⟩

namespace Span

variable {source : List Char} {span : Span} {tokens others : List (Token String)}

/-- A span from the first to the last of some tokens starts and ends with some of them. -/
theorem Hull.within (hull : span.Hull tokens) : span.Within tokens := by
  obtain ⟨first, isFirst, last, isLast, same⟩ := hull
  exact ⟨first, List.mem_of_mem_head? isFirst, last, List.mem_of_getLast? isLast, same⟩

/-- A span with some of the tokens is one with more. -/
theorem Within.mono (within : span.Within tokens) (more : tokens ⊆ others) :
    span.Within others := by
  obtain ⟨first, isFirst, last, isLast, same⟩ := within
  exact ⟨first, more isFirst, last, more isLast, same⟩

/-- A span with some tokens of a line lies inside the span of all of them. -/
theorem Within.inside {outer : Span} (within : span.Within tokens) (hull : outer.Hull tokens)
    (line : Token.InLine source tokens) : span.Inside outer := by
  obtain ⟨first, isFirst, last, isLast, rfl⟩ := within
  obtain ⟨opening, isOpening, closing, isClosing, rfl⟩ := hull
  exact ⟨line.le_start isOpening isFirst, line.stop_le isClosing isLast⟩

/-- A span from the first to the last token of a line is not reversed. -/
theorem Hull.ordered (hull : span.Hull tokens) (line : Token.InLine source tokens) :
    span.start ≤ span.stop := by
  obtain ⟨first, isFirst, last, isLast, rfl⟩ := hull
  exact line.start_le_stop isFirst isLast

/-- A span with some tokens of a text lies inside the text. -/
theorem Within.inside_text (within : span.Within tokens) (line : Token.InLine source tokens) :
    span.Inside ⟨0, Text.byteLength source⟩ := by
  obtain ⟨first, _, last, isLast, rfl⟩ := within
  exact ⟨Nat.zero_le _, (line.stands last isLast).inside⟩

end Span

namespace Forest

variable {forest : Forest} {source : List Char}

/-- What the tokens say about the spans of the children among some parts and of the nodes below
them. -/
structure Nested (forest : Forest) (parts : List Part) (nodes : List NodeId)
    (tokens : List (Token String)) : Prop where
  /-- Each child stands where some of the tokens stand. -/
  within : ∀ child ∈ parts.flatMap (Part.children forest.arena),
    (forest.arena.span child).Within tokens
  /-- The children follow each other. -/
  apart : (parts.flatMap (Part.children forest.arena)).Pairwise fun left right =>
    (forest.arena.span left).stop ≤ (forest.arena.span right).start
  /-- The spans below each node are nested. -/
  nests : ∀ id ∈ nodes, forest.arena.Nests id

/-- The spans below a node are nested when its production is written with tokens in a line, from
where the span starts to where it ends. -/
theorem Nested.nests_found {id : NodeId} {kind : NodeKind} {span : Span} {below : List NodeId}
    {tokens : List (Token String)} (nested : forest.Nested kind.production below tokens)
    (found : forest.arena.node? id = some ⟨kind, span⟩) (ordered : span.start ≤ span.stop)
    (inside : ∀ inner : Span, inner.Within tokens → inner.Inside span) :
    forest.arena.Nests id := by
  have own : forest.arena.span id = span := Arena.span_of_node? found
  have children := Arena.children_of_node? found
  rw [← NodeKind.children_production] at children
  refine ⟨?_, fun child member => ?_, ?_⟩
  · rw [own]
    exact ordered
  · rw [children] at member
    rw [own]
    exact inside _ (nested.within child member)
  · rw [children]
    exact nested.apart

/-- Parts that are written with tokens in a line are nested. -/
theorem Spells.nested {parts : List Part} {nodes : List NodeId} {tokens : List (Token String)}
    (spells : forest.Spells parts nodes tokens) (line : Token.InLine source tokens) :
    forest.Nested parts nodes tokens := by
  induction spells with
  | nil => exact ⟨nofun, .nil, nofun⟩
  | @write part rest nodes tokens others written more ih =>
    obtain ⟨_, later, _⟩ := Token.InLine.append_iff.mp line
    obtain ⟨within, apart, nests⟩ := ih later
    have same : (part :: rest).flatMap (Part.children forest.arena) =
        rest.flatMap (Part.children forest.arena) := by
      rw [List.flatMap_cons, written.children, List.nil_append]
    refine ⟨fun child member => ?_, ?_, nests⟩
    · rw [same] at member
      exact (within child member).mono (List.subset_append_right _ _)
    · rw [same]
      exact apart
  | @expand part parts rest nodes tokens stands inside more ih =>
    obtain ⟨within, apart, nests⟩ := ih line
    rw [List.flatMap_append, Part.children_expand? stands, ← List.flatMap_cons] at within apart
    exact ⟨within, apart, nests⟩
  | @node category id kind span rest below nodes tokens others found admitted hull inner more
      ihInner ihMore =>
    obtain ⟨first, second, precedes⟩ := Token.InLine.append_iff.mp line
    have nestedInner := ihInner first
    obtain ⟨withinMore, apartMore, nestsMore⟩ := ihMore second
    have own : forest.arena.span id = span := Arena.span_of_node? found
    refine ⟨fun child member => ?_, ?_, fun other member => ?_⟩
    · rcases List.mem_cons.mp member with rfl | later
      · rw [own]
        exact hull.within.mono (List.subset_append_left _ _)
      · exact (withinMore child later).mono (List.subset_append_right _ _)
    · refine List.pairwise_cons.mpr ⟨fun child later => ?_, apartMore⟩
      obtain ⟨_, _, last, isLast, left⟩ := hull.within
      obtain ⟨next, isNext, _, _, right⟩ := withinMore child later
      rw [own, left, right]
      exact (precedes last isLast next isNext).1
    · simp only [List.mem_append, List.mem_cons] at member
      rcases member with early | rfl | late
      · exact nestedInner.nests other early
      · exact nestedInner.nests_found found (hull.ordered first)
          fun inner within => within.inside hull first
      · exact nestsMore other late

end Forest

namespace Parser

variable {source : String} {root : NodeId} {final : Parser} {body : NodeRange}
  {below : List NodeId} {taken rest : List (Token String)}

/-- The tokens that a program was read from stand in a line. -/
theorem ReadsProgram.inLine (reads : ReadsProgram source root final body below taken rest) :
    Token.InLine source.toList taken := by
  have line := (reads.consumes.inLine (Token.InLine.of_source source.toList)).1
  exact (Token.InLine.append_iff.mp line).1

/-- The spans below every node of a program are nested. -/
theorem ReadsProgram.nests (reads : ReadsProgram source root final body below taken rest)
    {id : NodeId} (member : id ∈ final.arena.ids) : final.arena.Nests id := by
  have nested := reads.spells.nested reads.inLine
  rw [reads.nodes] at member
  rcases List.mem_append.mp member with inner | same
  · exact nested.nests id inner
  · obtain rfl := List.mem_singleton.mp same
    exact nested.nests_found reads.found (Nat.zero_le _)
      fun inner within => within.inside_text reads.inLine

end Parser

/-- The root spans the whole source text, and the spans below every node are nested: also when
there are errors, and wherever the nesting limit cuts the parse. -/
theorem spans_parseWith (options : ParseOptions) (source : String) :
    (parseWith options source).tree.span (parseWith options source).tree.root =
        ⟨0, Text.byteLength source.toList⟩ ∧
      ∀ id : NodeId, id.index < (parseWith options source).tree.arena.size →
        (parseWith options source).tree.arena.Nests id := by
  obtain ⟨body, below, taken, rest, reads⟩ := Parser.reads_run options source
  rw [parseWith_eq, Parser.tree_finish]
  generalize Parser.run options source = result at reads ⊢
  refine ⟨?_, fun id inside => reads.nests (Arena.mem_ids.mpr inside)⟩
  rw [SyntaxTree.span, Arena.span, reads.found]
  rfl

end Vibescript
