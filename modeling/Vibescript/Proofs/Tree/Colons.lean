import Mathlib.Data.List.Chain
import Vibescript.Proofs.Tree.Brackets

/-!
# What follows a colon

In the tokens of an undamaged tree a colon is followed by the first token of a value: an
expression, a type or a string. No value starts with a word that opens or ends a block. So where
a symbol was split into a colon and a word, the word is no bracket.
-/
namespace Vibescript

/-- Whether a child is a value, or a type in a union. -/
def Category.isValue : Category → Bool
  | expression _ | typeUnion | typeName | string => true
  | _ => false

namespace Part

/-- Whether some parts are written with a first token that is no bracket, if they are written with
a token at all. -/
def startsPlain : List Part → Bool
  | [] => true
  | token kind :: _ => !kind.tag.isBracket
  | identifier _ :: _ | operator _ :: _ | sign _ :: _ | string _ :: _ | type _ _ :: _ => true
  | node category _ :: _ => category.isValue
  | [separated category _ _] => category.isValue
  | _ => false

/-- Whether a colon is written at a place itself. -/
def isColon : Part → Bool
  | token kind | separated _ kind _ => kind.tag == .colon
  | _ => false

/-- Parts in which every colon is followed by a value. -/
inductive Phrased : List Part → Prop
  /-- No part. -/
  | nil : Phrased []
  /-- A part that is no colon. -/
  | plain {part : Part} {rest : List Part} (other : part.isColon = false) (more : Phrased rest) :
      Phrased (part :: rest)
  /-- A value after a colon. -/
  | value {category : Category} {id : NodeId} {rest : List Part}
      (isValue : category.isValue = true) (more : Phrased rest) :
      Phrased (.word .colon :: .node category id :: rest)

namespace Phrased

variable {parts others : List Part}

/-- Parts that are no colons. -/
theorem of_forall (plain : ∀ part ∈ parts, part.isColon = false) : Phrased parts := by
  induction parts with
  | nil => exact .nil
  | cons part rest ih =>
    exact .plain (plain part List.mem_cons_self)
      (ih fun other member => plain other (List.mem_cons_of_mem _ member))

/-- Parts among which there is no colon. -/
theorem of_any (none : parts.any isColon = false) : Phrased parts :=
  of_forall fun part member => by simpa using List.any_eq_false.mp none part member

/-- Two sequences one after the other. -/
theorem append (first : Phrased parts) (second : Phrased others) : Phrased (parts ++ others) := by
  induction first with
  | nil => exact second
  | plain other _ ih => exact .plain other ih
  | value isValue _ ih => exact .value isValue ih

/-- A value that may be introduced by a colon. -/
theorem introduced {category : Category} (isValue : category.isValue = true) (id : Option NodeId) :
    Phrased (introduced (.word .colon) category id) := by
  cases id with
  | none => exact .nil
  | some id => exact .value isValue .nil

/-- What a part that is no colon stands for is as good as the part. -/
theorem expand {arena : Arena} {part : Part} (stands : part.expand? arena = some parts)
    (other : part.isColon = false) (more : Phrased others) : Phrased (parts ++ others) := by
  refine append (of_forall fun inner member => ?_) more
  obtain ⟨category, id, rfl⟩ | rfl | ⟨kind, rfl, same⟩ := of_mem_expand? stands member
  · rfl
  · rfl
  · obtain ⟨category, range, rfl⟩ | rfl | ⟨name, rfl⟩ := same
    · exact other
    · rfl
    · rfl

end Phrased

end Part

namespace NodeKind

/-- Every colon of a production is followed by a value. -/
theorem phrased_production (kind : NodeKind) : Part.Phrased kind.production := by
  cases kind
  case typedParameter name union default =>
    refine .plain rfl (.value rfl (.of_any ?_))
    cases default <;> rfl
  case variableParameter name union => exact .plain rfl (.introduced rfl union)
  case requireImport target path asName =>
    refine .append (.append (.of_any rfl) ?_) (.of_any rfl)
    cases asName with
    | none => exact .nil
    | some id => exact .plain rfl (.plain rfl (.value rfl .nil))
  case keywordArgument key value => exact .plain rfl (.value rfl .nil)
  case hashEntry key value => exact .plain rfl (.value rfl .nil)
  case method isPrivate name inputs returnType statements =>
    have lead : (if isPrivate then [Part.word .kwPrivate] else []).any Part.isColon = false := by
      cases isPrivate <;> rfl
    have qualifier : (if name.isSingleton then [Part.word .kwSelf, Part.word .dot] else []).any
        Part.isColon = false := by
      cases name.isSingleton <;> rfl
    refine .of_any ?_
    simp only [production, List.any_append, lead, qualifier]
    cases inputs <;> cases returnType <;> rfl
  case block inputs statements =>
    refine .of_any ?_
    simp only [production]
    split <;> rfl
  all_goals
    refine .of_any ?_
    simp [production, Part.isColon, TokenKind.tag, Part.word, Part.body, Part.possible,
      Part.introduced, Part.anyExpression, List.any_append, List.any_flatMap]

/-- No value is written with a bracket first. -/
theorem startsPlain_production {category : Category} {kind : NodeKind}
    (isValue : category.isValue = true) (admitted : category.admits kind = true) :
    Part.startsPlain kind.production = true := by
  cases category <;> first | contradiction | skip
  case expression least =>
    have isSome : kind.power?.isSome = true := by
      rw [Category.admits, bindsAt] at admitted
      exact Option.isSome_of_any admitted
    cases kind <;> first | contradiction | rfl | skip
    case call receiver callee arguments doBlock => cases receiver <;> rfl
  all_goals cases kind <;> first | contradiction | rfl

end NodeKind

namespace Token

/-- Whether a token may follow another: no bracket follows a colon. -/
def MayFollow (left right : Token String) : Prop :=
  left.tag = .colon → right.tag.isBracket = false

/-- Tokens in which no bracket follows a colon, and the last is no colon. -/
structure Introduced (tokens : List (Token String)) : Prop where
  /-- Each may follow the one before it. -/
  chain : tokens.IsChain MayFollow
  /-- What follows them follows no colon. -/
  last : ∀ last ∈ tokens.getLast?, last.tag ≠ .colon

namespace Introduced

variable {tokens others : List (Token String)}

/-- Two sequences one after the other. -/
theorem append (first : Introduced tokens) (second : Introduced others) :
    Introduced (tokens ++ others) := by
  constructor
  · refine first.chain.append second.chain fun left isLast right _ colon => ?_
    exact absurd colon (first.last left isLast)
  · intro last isLast
    rw [List.getLast?_append, Option.mem_def, Option.or_eq_some_iff] at isLast
    rcases isLast with late | ⟨_, early⟩
    · exact second.last last late
    · exact first.last last early

/-- Tokens among which there is no colon. -/
theorem of_forall (other : ∀ token ∈ tokens, token.tag ≠ .colon) : Introduced tokens := by
  induction tokens with
  | nil => exact ⟨.nil, nofun⟩
  | cons token rest ih =>
    obtain ⟨first, others⟩ := List.forall_mem_cons.mp other
    have single : Introduced [token] := ⟨.singleton _, by simpa using first⟩
    exact single.append (ih others)

/-- A colon before tokens that start with no bracket. -/
theorem colon {token : Token String} (more : Introduced tokens) (filled : tokens ≠ [])
    (first : ∀ next ∈ tokens.head?, next.tag.isBracket = false) :
    Introduced (token :: tokens) := by
  constructor
  · exact List.isChain_cons.mpr ⟨fun next isNext _ => first next isNext, more.chain⟩
  · intro last isLast
    rw [List.getLast?_cons_of_ne_nil filled] at isLast
    exact more.last last isLast

end Introduced

end Token

namespace Forest

variable {forest : Forest} {parts : List Part} {nodes : List NodeId}
  {tokens : List (Token String)}

/-- Parts that start plainly are written with a first token that is no bracket. -/
theorem Spells.startsPlain (whole : ¬ forest.isDamaged)
    (spells : forest.Spells parts nodes tokens) (plain : Part.startsPlain parts = true) :
    ∀ token ∈ tokens.head?, token.tag.isBracket = false := by
  induction spells with
  | nil => exact nofun
  | @write part rest nodes tokens others written more ih =>
    have clear : part.isClear = true := by
      cases written <;> first | contradiction | exact plain
    have bare := written.isBracket_eq_false whole clear
    have filled : tokens ≠ [] := by
      cases written <;> first | contradiction | exact List.cons_ne_nil _ _
    intro token first
    rw [List.head?_append_of_ne_nil _ filled] at first
    exact bare token (List.mem_of_mem_head? first)
  | @expand part parts rest nodes tokens stands inside more ih =>
    cases part <;> first | contradiction | skip
    case separated category separator range =>
      cases rest with
      | cons => contradiction
      | nil =>
        refine ih ?_
        simp only [Part.expand?, Option.some.injEq] at stands
        subst stands
        cases forest.arena.list range with
        | nil => rfl
        | cons id ids => cases ids <;> exact plain
  | @node category id kind span rest below nodes tokens others found admitted spans inner more ih _ =>
    obtain ⟨first, isFirst, _⟩ := spans
    intro token isToken
    have filled : tokens ≠ [] := by
      rintro rfl
      contradiction
    rw [List.head?_append_of_ne_nil _ filled] at isToken
    exact ih (NodeKind.startsPlain_production plain admitted) token isToken

/-- A part that is no colon is written without a colon. -/
theorem Writes.tag_ne_colon (whole : ¬ forest.isDamaged) {part : Part}
    (written : forest.Writes part tokens) (other : part.isColon = false) :
    ∀ token ∈ tokens, token.tag ≠ .colon := by
  obtain ⟨kind, token, rfl, rfl, same⟩ | plain := written.tag_or_isPlain whole
  · refine List.forall_mem_singleton.mpr ?_
    rw [same]
    simpa [Part.isColon] using other
  · intro token member
    have both := plain token member
    rw [Tag.isPlain, Bool.and_eq_true, bne_iff_ne] at both
    exact both.2

/-- A child is written with a token. -/
theorem Spells.ne_nil {category : Category} {id : NodeId}
    (spells : forest.Spells (.node category id :: parts) nodes tokens) : tokens ≠ [] := by
  cases spells with
  | write written => cases written
  | expand stands => contradiction
  | node _ _ spans =>
    obtain ⟨first, isFirst, _⟩ := spans
    refine List.append_ne_nil_of_left_ne_nil ?_ _
    rintro rfl
    contradiction

/-- In the tokens of an undamaged forest no bracket follows a colon. -/
theorem Spells.introduced (whole : ¬ forest.isDamaged)
    (spells : forest.Spells parts nodes tokens) (phrased : Part.Phrased parts) :
    Token.Introduced tokens := by
  induction spells with
  | nil => exact .of_forall nofun
  | write written more ih =>
    cases phrased with
    | plain other phrased =>
      exact (Token.Introduced.of_forall (written.tag_ne_colon whole other)).append (ih phrased)
    | value isValue phrased =>
      cases written with
      | token => exact (ih (.plain rfl phrased)).colon more.ne_nil (more.startsPlain whole isValue)
  | expand stands _ _ ih =>
    cases phrased with
    | plain other phrased => exact ih (.expand stands other phrased)
    | value => contradiction
  | @node _ _ kind _ _ _ _ _ _ _ _ _ _ _ ihInner ihMore =>
    cases phrased with
    | plain _ phrased => exact (ihInner kind.phrased_production).append (ihMore phrased)

end Forest

end Vibescript
