import Vibescript.Proofs.Cursor.Consumption
import Vibescript.Proofs.Tree.Spelling

/-!
# How texts end

After an equals sign, a comma, a colon or an opening parenthesis another token is expected. Every
production goes on after such a token with a part that is written with a token, so the tokens of an
undamaged tree do not end with one.
-/
namespace Vibescript

/-- Whether something is expected after a token. -/
def Tag.leavesOpen (tag : Tag) : Bool := [assign, leftParen, comma, colon].contains tag

namespace Token

variable {tokens others : List (Token String)}

/-- The last ordinary token does not expect another. -/
def Rests (tokens : List (Token String)) : Prop :=
  ∀ last ∈ (ordinary tokens).getLast?, last.tag.leavesOpen = false

/-- Tokens of which none expects another. -/
theorem Rests.of_forall (all : ∀ token ∈ tokens, token.tag.leavesOpen = false) : Rests tokens :=
  fun last isLast => all last (List.mem_filter.mp (List.mem_of_getLast? isLast)).1

/-- Tokens after others. -/
theorem Rests.append (second : Rests others) (either : Rests tokens ∨ ordinary others ≠ []) :
    Rests (tokens ++ others) := by
  intro last isLast
  rw [ordinary_append, List.getLast?_append, Option.mem_def, Option.or_eq_some_iff] at isLast
  rcases isLast with late | ⟨none, early⟩
  · exact second last late
  · rcases either with first | filled
    · exact first last early
    · exact absurd (List.getLast?_eq_none_iff.mp none) filled

/-- Tokens end as their last ones do. -/
theorem Rests.of_append (rests : Rests (tokens ++ others)) : Rests others := by
  intro last isLast
  refine rests last ?_
  rw [ordinary_append, List.getLast?_append, isLast]
  rfl

/-- Directives after tokens do not matter. -/
theorem Rests.of_directives (rests : Rests (tokens ++ others)) (none : ordinary others = []) :
    Rests tokens := by
  intro last isLast
  refine rests last ?_
  rwa [ordinary_append, none, List.append_nil]

end Token

/-- Whether the tokens of a child expect no other. -/
def Category.rests : Category → Bool
  | statement | method | elsifClause | elseClause | whenClause | rescueClause | ensureClause | block
  | expression _ => true
  | _ => false

namespace Part

/-- Whether the tokens of a part expect no other. -/
def rests : Part → Bool
  | token kind => !kind.tag.leavesOpen
  | operator op => op != .assign
  | node category _ | nodes category _ => category.rests
  | separated (.expression _) _ _ => true
  | identifier _ | sign _ | string _ | type _ _ | comment _ | skipped => true
  | separated _ _ _ | trailingComma | listed _ _ | nameList _ => false

/-- Whether a part is written with an ordinary token. -/
def isFilled : Part → Bool
  | token kind => !kind.isDirective
  | node (.expression _) _ => true
  | identifier _ | operator _ | sign _ | string _ | type _ _ => true
  | _ => false

/-- Whether something is written after every part whose tokens expect another. -/
def settle : List Part → Bool
  | [] => true
  | part :: rest => (part.rests || rest.any isFilled) && settle rest

variable {parts rest : List Part}

/-- Parts before others that are written with an ordinary token. -/
theorem settle_append (filled : rest.any isFilled = true) (settled : settle rest = true) :
    settle (parts ++ rest) = true := by
  induction parts with
  | nil => exact settled
  | cons part parts ih =>
    rw [List.cons_append, settle, ih, List.any_append, filled]
    simp only [Bool.or_true, Bool.and_true]

/-- Parts whose tokens expect no other. -/
theorem settle_append_of_forall (all : ∀ part ∈ parts, part.rests = true)
    (settled : settle rest = true) : settle (parts ++ rest) = true := by
  induction parts with
  | nil => exact settled
  | cons part parts ih =>
    rw [List.cons_append, settle, all part List.mem_cons_self,
      ih fun other member => all other (List.mem_cons_of_mem _ member)]
    rfl

/-- Parts with something between them, each written with an ordinary token. -/
theorem settle_joined {separator : Part} {items : List Part}
    (all : ∀ part ∈ items, part.rests = true ∧ part.isFilled = true)
    (settled : settle rest = true) : settle (joined separator items ++ rest) = true := by
  induction items with
  | nil => exact settled
  | cons part items ih =>
    have own := (all part List.mem_cons_self).1
    have others := ih fun other member => all other (List.mem_cons_of_mem _ member)
    cases items with
    | nil => exact settle_append_of_forall (List.forall_mem_singleton.mpr own) settled
    | cons next items =>
      have first := (all next (List.mem_cons_of_mem _ List.mem_cons_self)).2
      have filled : (joined separator (next :: items) ++ rest).any isFilled = true := by
        cases items <;> simp [joined, first]
      have whole : joined separator (part :: next :: items) ++ rest =
          part :: separator :: (joined separator (next :: items) ++ rest) := rfl
      rw [whole, settle, settle, others, filled, own]
      simp

/-- What a part stands for settles as the part does. -/
theorem settle_expand {arena : Arena} {part : Part} (stands : part.expand? arena = some parts)
    (settled : settle (part :: rest) = true) : settle (parts ++ rest) = true := by
  rw [settle, Bool.and_eq_true, Bool.or_eq_true] at settled
  obtain ⟨own | filled, later⟩ := settled
  · cases part <;> first | contradiction | skip
    case nodes category range =>
      obtain rfl := Option.some.inj stands
      refine settle_append_of_forall (fun part member => ?_) later
      obtain ⟨id, _, rfl⟩ := List.mem_map.mp member
      exact own
    case separated category separator range =>
      obtain rfl := Option.some.inj stands
      cases category <;> first | contradiction | skip
      refine settle_joined (fun part member => ?_) later
      obtain ⟨id, _, rfl⟩ := List.mem_map.mp member
      exact ⟨rfl, rfl⟩
  · exact settle_append filled later

end Part

namespace NodeKind

/-- An expression is written with a token of its own. -/
theorem any_isFilled_production {kind : NodeKind} (isExpression : kind.power?.isSome = true) :
    kind.production.any Part.isFilled = true := by
  cases kind <;> first | contradiction | rfl | skip
  case call receiver callee arguments doBlock => cases receiver <;> rfl

/-- A child whose tokens expect no other is written so. -/
theorem settle_production {category : Category} {kind : NodeKind} (rests : category.rests = true)
    (admitted : category.admits kind = true) : Part.settle kind.production = true := by
  have closed (parts : List Part) (tag : Tag) (spelled : tag.spelling?.isSome = true)
      (closes : tag.leavesOpen = false) : Part.settle (parts ++ [.word tag spelled]) = true := by
    refine Part.settle_append rfl ?_
    show (!tag.leavesOpen || false) && true = true
    rw [closes]
    rfl
  cases kind <;> first | (cases category <;> contradiction) | rfl | exact closed _ _ rfl rfl | skip
  case rescueClause filter statements => cases filter <;> rfl
  case returnJump value => cases value <;> rfl
  case yieldJump arguments => cases arguments <;> rfl
  case call receiver callee arguments doBlock => cases receiver <;> cases doBlock <;> rfl
  case memberAccess receiver member doBlock => cases doBlock <;> rfl

end NodeKind

namespace Forest

variable {forest : Forest} {parts : List Part} {nodes : List NodeId}
  {tokens : List (Token String)}

/-- A part that is written with an ordinary token. -/
theorem Writes.ordinary_ne_nil {part : Part} (written : forest.Writes part tokens)
    (filled : part.isFilled = true) : Token.ordinary tokens ≠ [] := by
  have plain {token : Token String} (member : token ∈ tokens)
      (other : token.kind.isDirective = false) : Token.ordinary tokens ≠ [] :=
    List.ne_nil_of_mem (List.mem_filter.mpr ⟨member, by simpa using other⟩)
  have named {kind : TokenKind String} {text : Option String} {isFolded : Bool}
      (names : kind.NamesType text isFolded) : kind.isDirective = false := by
    cases names <;> rfl
  cases written with
  | @token kind token reads =>
    refine plain List.mem_cons_self ?_
    rw [reads, TokenKind.isDirective_map]
    simpa [Part.isFilled] using filled
  | identifier reads =>
    refine plain List.mem_cons_self ?_
    rw [reads]
    rfl
  | @operator _ token reads =>
    refine plain List.mem_cons_self ?_
    rw [Token.tag] at reads
    generalize token.kind = kind at reads
    cases kind <;> first | rfl | contradiction
  | @sign _ token reads =>
    refine plain List.mem_cons_self ?_
    rw [Token.tag] at reads
    generalize token.kind = kind at reads
    cases kind <;> first | rfl | contradiction
  | string opens =>
    refine plain List.mem_cons_self ?_
    rw [opens]
    rfl
  | type _ reads => exact plain List.mem_cons_self (named reads)
  | noComma | comma | comment | whole | skipped => contradiction

/-- Parts of which one is written with an ordinary token. -/
theorem Spells.ordinary_ne_nil (spells : forest.Spells parts nodes tokens)
    (filled : parts.any Part.isFilled = true) : Token.ordinary tokens ≠ [] := by
  induction spells with
  | nil => contradiction
  | write written _ ih =>
    rw [Token.ordinary_append]
    rw [List.any_cons, Bool.or_eq_true] at filled
    rcases filled with own | later
    · exact List.append_ne_nil_of_left_ne_nil (written.ordinary_ne_nil own) _
    · exact List.append_ne_nil_of_right_ne_nil _ (ih later)
  | @expand part _ _ _ _ stands _ _ ih =>
    rw [List.any_cons, Bool.or_eq_true] at filled
    refine ih ?_
    rw [List.any_append, Bool.or_eq_true]
    refine .inr (filled.resolve_left ?_)
    cases part <;> first | contradiction | exact Bool.false_ne_true
  | @node category _ kind _ _ _ _ _ _ _ admitted _ _ _ inner ih =>
    rw [Token.ordinary_append]
    rw [List.any_cons, Bool.or_eq_true] at filled
    rcases filled with own | later
    · refine List.append_ne_nil_of_left_ne_nil (inner ?_) _
      cases category <;> first | contradiction | skip
      refine NodeKind.any_isFilled_production ?_
      rw [Category.admits, NodeKind.bindsAt] at admitted
      exact Option.isSome_of_any admitted
    · exact List.append_ne_nil_of_right_ne_nil _ (ih later)

/-- A part whose tokens expect no other. -/
theorem Writes.rests (whole : ¬ forest.isDamaged) {part : Part}
    (written : forest.Writes part tokens) (rests : part.rests = true) : Token.Rests tokens := by
  have rested {kind : TokenKind String} {text : Option String} {isFolded : Bool}
      (names : kind.NamesType text isFolded) : kind.tag.leavesOpen = false := by
    cases names <;> rfl
  refine .of_forall fun token member => ?_
  rw [Token.tag]
  cases written with
  | token reads =>
    obtain rfl := List.mem_singleton.mp member
    rw [reads, TokenKind.tag_map]
    simpa [Part.rests] using rests
  | identifier reads =>
    obtain rfl := List.mem_singleton.mp member
    rw [reads]
    rfl
  | @operator op _ reads =>
    obtain rfl := List.mem_singleton.mp member
    rw [Token.tag] at reads
    generalize token.kind.tag = tag at reads
    cases tag <;> first | rfl | contradiction | (obtain rfl := Option.some.inj reads; contradiction)
  | sign reads =>
    obtain rfl := List.mem_singleton.mp member
    rw [Token.tag] at reads
    generalize token.kind.tag = tag at reads
    cases tag <;> first | rfl | contradiction
  | string opens closes reads =>
    simp only [List.cons_append, List.mem_cons, List.mem_append, List.not_mem_nil, or_false]
      at member
    rcases member with rfl | piece | rfl
    · rw [opens]
      rfl
    · have isText := reads.all token piece
      generalize token.kind = kind at isText
      cases kind <;> first | rfl | contradiction
    · rw [closes]
      rfl
  | type mark reads _ marks =>
    rcases List.mem_cons.mp member with rfl | last
    · exact rested reads
    · rw [marks token (by simpa using last)]
      rfl
  | noComma | comment | whole => contradiction
  | comma => contradiction
  | skipped damaged => exact absurd damaged whole

/-- The tokens of an undamaged forest do not end with one that expects another. -/
theorem Spells.rests (whole : ¬ forest.isDamaged) (spells : forest.Spells parts nodes tokens)
    (settled : Part.settle parts = true) : Token.Rests tokens := by
  induction spells with
  | nil => exact nofun
  | write written more ih =>
    rw [Part.settle, Bool.and_eq_true, Bool.or_eq_true] at settled
    exact (ih settled.2).append (settled.1.imp (written.rests whole) more.ordinary_ne_nil)
  | expand stands _ _ ih => exact ih (Part.settle_expand stands settled)
  | node _ admitted _ _ more inner ih =>
    rw [Part.settle, Bool.and_eq_true, Bool.or_eq_true] at settled
    refine (ih settled.2).append (settled.1.imp (fun rests => ?_) more.ordinary_ne_nil)
    exact inner (NodeKind.settle_production rests admitted)

end Forest

/-- Tokens end as those that are taken of them do. -/
theorem Consumes.rests {whole taken : List (Token String)} (consumes : Consumes whole taken [])
    (rests : Token.Rests taken) : Token.Rests whole := by
  generalize left : ([] : List (Token String)) = rest at consumes
  induction consumes with
  | done => exact left ▸ nofun
  | @take token rest taken _ more ih =>
    have after : Token.Rests ([token] ++ taken) := rests
    have later := ih after.of_append left
    show Token.Rests ([token] ++ _)
    refine later.append ?_
    by_cases none : Token.ordinary rest = []
    · -- Of directives only directives are taken.
      have directive := more.forall_taken (·.kind.isDirective = true) nofun
        (by simpa [Token.ordinary] using none)
      exact .inl (after.of_directives (Token.ordinary_eq_nil directive))
    · exact .inr none
  | @demote token _ _ _ directive _ ih =>
    intro last isLast
    rw [Token.ordinary_cons_directive directive] at isLast
    exact ih rests left last isLast
  | @split name span before rest _ _ directives _ ih =>
    have halves : before ++ .colonOf span :: .wordOf name span :: rest =
        before ++ [.colonOf span, .wordOf name span] ++ rest := by simp
    have later : Token.Rests rest := (halves ▸ ih rests left).of_append
    have symbol : Token.Rests [⟨.symbol name, span⟩] := .of_forall (by simp [Token.tag,
      TokenKind.tag, Tag.leavesOpen])
    have first : Token.Rests (before ++ [⟨.symbol name, span⟩]) :=
      symbol.append (.inr (by simp [Token.ordinary, TokenKind.isDirective]))
    have whole := later.append (.inl first)
    rwa [List.append_assoc] at whole

end Vibescript
