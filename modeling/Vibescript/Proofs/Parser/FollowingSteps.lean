import Vibescript.Proofs.Parser.Following
import Vibescript.Proofs.Parser.Pausing

/-!
# Steps of a parse inside another one

The steps that readings are put together from follow each other in a text and in another one that it
stands in. Where tokens of the text are left, both parses stand at tokens of one kind, and a question
has one answer. Where none are left, the first parse stands at the end and the second at the tail:
there a reading which needs a token fails on the text alone, and one that looks for a token which goes
on with others finds it on neither side.
-/
namespace Vibescript

/-- Kinds that are written alike differ in the name only. -/
theorem TokenKind.exists_rename {kind other : TokenKind Name} {read write : Name → String}
    (same : kind.map read = other.map write) :
    ∃ rename : Name → Name, other = kind.map rename ∧
      ∀ name ∈ kind.name?, rename name ∈ other.name? ∧ read name = write (rename name) := by
  cases named : other.name? with
  | none =>
    refine ⟨id, ?_, fun name member => ?_⟩
    · cases kind <;> cases other <;> first
        | contradiction
        | rfl
        | simpa [map] using same.symm
    · have none := congrArg TokenKind.name? same
      rw [name?_map, name?_map, named, member] at none
      contradiction
  | some word =>
    refine ⟨fun _ => word, ?_, fun name member => ⟨rfl, ?_⟩⟩
    · cases kind <;> cases other <;> first
        | contradiction
        | exact congrArg _ (Option.some.inj named)
    · have both := congrArg TokenKind.name? same
      rw [name?_map, name?_map, named, member] at both
      exact Option.some.inj both

/-- The name of a kind stands for the same under another name. -/
def Lasting.renamed (kind : TokenKind Name) (rename : Name → Name) : Lasting :=
  { holds := fun sides => ∀ name ∈ kind.name?, (Agreement.name name (rename name)).holds sides
    mono := fun grows agrees name member => (Agreement.name _ _).mono grows (agrees name member) }

namespace Parser.Beside

variable {seam : Seam} {here there : Parser}

/-- At tokens of the text the kinds differ in the name only, and the names have one text. -/
theorem kind (beside : here.Beside seam there) (notEnd : here.cursor.isAtEnd = false) :
    ∃ rename, there.cursor.current.kind = here.cursor.current.kind.map rename ∧
      (Lasting.renamed here.cursor.current.kind rename).holds (here.sides there) := by
  obtain ⟨_, _, asking⟩ := beside.asking
  obtain ⟨_, _, _, _, ahead⟩ := asking.inset.ahead notEnd
  obtain ⟨rename, same, texts⟩ := TokenKind.exists_rename ahead.kind
  refine ⟨rename, same, fun name member => ?_⟩
  obtain ⟨carried, text⟩ := texts name member
  exact ⟨ahead.known.1 name member, ahead.known.2 _ carried, text⟩

/-- At tokens of the text the tags are the same. -/
theorem tag (beside : here.Beside seam there) (notEnd : here.cursor.isAtEnd = false) :
    there.cursor.current.tag = here.cursor.current.tag := by
  obtain ⟨rename, same, _⟩ := beside.kind notEnd
  rw [Token.tag, same, TokenKind.tag_map, Token.tag]

/-- At the end of the text the other parser stands at the tail. -/
theorem tag_atEnd (beside : here.Beside seam there) (atEnd : here.cursor.isAtEnd = true) :
    here.cursor.current.tag = .endOfInput ∧ there.cursor.current.tag.attaches = false := by
  obtain ⟨_, _, asking⟩ := beside.asking
  refine ⟨beq_iff_eq.mp atEnd, ?_⟩
  rw [asking.inset.tag_atEnd atEnd]
  exact asking.inset.detached.opens

/-- Both step over a token. -/
theorem advance (beside : here.Beside seam there) (notEnd : here.cursor.isAtEnd = false) :
    (here.withCursor here.cursor.advance.2).Beside seam
      (there.withCursor there.cursor.advance.2) := by
  obtain ⟨_, _, asking⟩ := beside.asking
  exact beside.withCursor (asking.advance notEnd)

/-- The arenas are changed. -/
theorem withArena (beside : here.Beside seam there) (arena other : Arena) :
    (here.withArena arena).Beside seam (there.withArena other) :=
  ⟨beside.asking, beside.clean, beside.goesOn⟩

/-- The forests grow with the arenas. -/
theorem grows_withArena {here there : Parser} {arena other : Arena} (grows : here.arena.Grows arena)
    (growsOther : there.arena.Grows other) :
    (here.sides there).Grows ((here.withArena arena).sides (there.withArena other)) :=
  ⟨⟨grows, .refl _, id⟩, ⟨growsOther, .refl _, id⟩⟩

end Parser.Beside

namespace Parse

open Build

variable {α β γ : Type} {seam : Seam} {stance : Stance} {known : Lasting} {agree : Agreement α}
  {last : Agreement β}

/-- A reading that is asked for the kind of the current token fails where none is left. -/
theorem Refuses.ofKind {next : Token Name → Parse α}
    (atEnd : ∀ span, (next ⟨.endOfInput, span⟩).Barren) :
    (liftM Build.current >>= next).Refuses (·.isAtEnd = true) := by
  intro here answer after goesOn isAtEnd gives
  have kind : here.cursor.current = ⟨.endOfInput, here.cursor.current.span⟩ := by
    rw [← TokenKind.eq_endOfInput (beq_iff_eq.mp isAtEnd)]
  have gave : (next here.cursor.current).Gives here answer after := gives
  rw [kind] at gave
  exact (atEnd _).fails here answer after goesOn gave

namespace Follows

variable {leftNext rightNext : γ → Parse α}

/-- A question about the parser with one answer, before readings that start where it was asked. -/
theorem asks {step other : Build γ} (still : ∀ parser : Parser, (step parser).2 = parser)
    (stillOther : ∀ parser : Parser, (other parser).2 = parser)
    (same : ∀ here there : Parser, here.Beside seam there → known.holds (here.sides there) →
      stance.admits here.cursor → (step here).1 = (other there).1)
    (next : ∀ answer, Follows seam stance known agree (leftNext answer) (rightNext answer)) :
    Follows seam stance known agree (liftM step >>= leftNext) (liftM other >>= rightNext) := by
  have run {β γ : Type} {step : Build γ} (still : ∀ parser : Parser, (step parser).2 = parser)
      (next : γ → Parse β) (parser : Parser) :
      (liftM step >>= next).run parser = (next (step parser).1).run parser := by
    rw [run_bind_ok (run_lift step parser), still]
  refine ⟨.bind (.quiet fun parser => ?_) fun answer => (next answer).tame,
    fun here there beside holds admitted answer after gives => ?_⟩
  · rw [still]
    exact .refl parser
  · rw [Gives, run still] at gives
    rw [CatchesUp, run stillOther, ← same here there beside holds admitted]
    exact (next _).follows here there beside holds admitted answer after gives

/-- The tag of the current token, before readings for either case. -/
theorem ofTag {leftNext rightNext : Tag → Parse α} (tame : ∀ tag, (leftNext tag).Tame)
    (next : ∀ here there : Parser, here.Beside seam there → known.holds (here.sides there) →
      stance.admits here.cursor → ∀ answer after,
      (leftNext here.cursor.current.tag).Gives here answer after →
      (stance.mayRunOut = true ∧ after.cursor.Spent) ∨
        (rightNext there.cursor.current.tag).CatchesUp seam agree here there answer after) :
    Follows seam stance known agree (liftM Build.currentTag >>= leftNext)
      (liftM Build.currentTag >>= rightNext) :=
  ⟨.bind (.quiet fun parser => .refl parser) tame, next⟩

/-- The tag of the current token. -/
theorem currentTag {leftNext rightNext : Tag → Parse α} (isAwake : stance.IsAwake)
    (next : ∀ tag, Follows seam (stance.facing tag) known agree (leftNext tag) (rightNext tag)) :
    Follows seam stance known agree (liftM Build.currentTag >>= leftNext)
      (liftM Build.currentTag >>= rightNext) := by
  refine .ofTag (fun tag => (next tag).tame)
    fun here there beside holds admitted answer after gives => ?_
  rw [beside.tag (beside.notAtEnd isAwake admitted)]
  exact (next _).follows here there beside holds ⟨admitted, rfl⟩ answer after gives

/-- What holds before any token holds before one with a tag. -/
theorem unfaced {tag : Tag} {left right : Parse α}
    (reading : Follows seam stance known agree left right) :
    Follows seam (stance.facing tag) known agree left right :=
  reading.relax (fun _ _ _ admitted => admitted.1) id

/-- The tag of the current token, or of the first one of the tail. -/
theorem currentTagOrTail {leftNext rightNext : Tag → Parse α}
    (next : ∀ tag, Follows seam .awake known agree (leftNext tag) (rightNext tag))
    (atEnd : ∀ opening : Tag, opening.attaches = false →
      Follows seam .anywhere known agree (leftNext .endOfInput) (rightNext opening)) :
    Follows seam .anywhere known agree (liftM Build.currentTag >>= leftNext)
      (liftM Build.currentTag >>= rightNext) := by
  refine .ofTag (fun tag => (next tag).tame)
    fun here there beside holds admitted answer after gives => .inr ?_
  cases isAtEnd : here.cursor.isAtEnd with
  | false =>
    rw [beside.tag isAtEnd]
    exact (next _).catchesUp rfl beside holds isAtEnd gives
  | true =>
    obtain ⟨ends, detached⟩ := beside.tag_atEnd isAtEnd
    rw [ends] at gives
    exact (atEnd _ detached).catchesUp rfl beside holds trivial gives

/-- Whether the current token has a tag. -/
theorem check {leftNext rightNext : Bool → Parse α} (isAwake : stance.IsAwake) {tag : Tag}
    (yes : Follows seam (stance.facing tag) known agree (leftNext true) (rightNext true))
    (no : Follows seam stance known agree (leftNext false) (rightNext false)) :
    Follows seam stance known agree (liftM (Build.check tag) >>= leftNext)
      (liftM (Build.check tag) >>= rightNext) := by
  show Follows seam stance known agree
    (liftM Build.currentTag >>= fun found => leftNext (found == tag))
    (liftM Build.currentTag >>= fun found => rightNext (found == tag))
  refine .currentTag isAwake fun found => ?_
  cases same : found == tag with
  | true => exact beq_iff_eq.mp same ▸ yes
  | false => exact no.unfaced

/-- Whether the current token has a tag, before readings that are asked for the answer only. -/
theorem checked (isAwake : stance.IsAwake) (tag : Tag) :
    Follows seam stance known .same (liftM (Build.check tag)) (liftM (Build.check tag)) := by
  refine .step (fun parser => .refl parser) fun here there beside _ admitted =>
    ⟨beside, .refl _, ?_⟩
  show (here.cursor.current.tag == tag) = (there.cursor.current.tag == tag)
  rw [beside.tag (beside.notAtEnd isAwake admitted)]

/-- Whether the current token has a tag that the tail does not start with. -/
theorem checkOrTail {leftNext rightNext : Bool → Parse α} {tag : Tag} (attaches : tag.attaches = true)
    (yes : Follows seam .awake known agree (leftNext true) (rightNext true))
    (no : Follows seam .anywhere known agree (leftNext false) (rightNext false)) :
    Follows seam .anywhere known agree (liftM (Build.check tag) >>= leftNext)
      (liftM (Build.check tag) >>= rightNext) := by
  show Follows seam .anywhere known agree
    (liftM Build.currentTag >>= fun found => leftNext (found == tag))
    (liftM Build.currentTag >>= fun found => rightNext (found == tag))
  refine .currentTagOrTail (fun found => ?_) fun opening detached => ?_
  · cases found == tag with
    | true => exact yes
    | false => exact no.of_anywhere
  · have notEnd : Tag.endOfInput ≠ tag := by
      rintro rfl
      contradiction
    have notOpening : opening ≠ tag := by
      rintro rfl
      rw [detached] at attaches
      contradiction
    rw [beq_false_of_ne notEnd, beq_false_of_ne notOpening]
    exact no

/-- Whether the current token has a tag, where the text alone has errors if not. -/
theorem checkOrFail {leftNext rightNext : Bool → Parse α} {tag : Tag} (real : tag ≠ .endOfInput)
    (yes : Follows seam .awake known agree (leftNext true) (rightNext true))
    (no : (leftNext false).Barren) :
    Follows seam .anywhere known agree (liftM (Build.check tag) >>= leftNext)
      (liftM (Build.check tag) >>= rightNext) := by
  show Follows seam .anywhere known agree
    (liftM Build.currentTag >>= fun found => leftNext (found == tag))
    (liftM Build.currentTag >>= fun found => rightNext (found == tag))
  refine .currentTagOrTail (fun found => ?_) fun opening _ => ?_
  · cases found == tag with
    | true => exact yes
    | false => exact .barren no
  · rw [beq_false_of_ne real.symm]
    exact .barren no

/-- A step over a token. -/
theorem advance (isAwake : stance.IsAwake) :
    Follows seam stance known .any (liftM Build.advance) (liftM Build.advance) :=
  .step (isQuiet_onCursor Cursor.onward_advance) fun _ _ beside _ admitted =>
    ⟨beside.advance (beside.notAtEnd isAwake admitted),
      beside.grows_withCursor (Cursor.onward_advance _) (Cursor.onward_advance _), trivial⟩

/-- The token after `return`, or the first one of the tail, which starts no value. -/
theorem afterReturn {leftNext rightNext : Token Name → Tag → Parse α}
    (next : ∀ token other tag,
      Follows seam .awake known agree (leftNext token tag) (rightNext other tag))
    (atEnd : ∀ token other opening, TagSet.expressionStart.contains opening = false →
      Follows seam .anywhere known agree (leftNext token .endOfInput) (rightNext other opening)) :
    Follows seam (.facing .awake .kwReturn) known agree
      (liftM Build.advance >>= fun token => liftM Build.currentTag >>= leftNext token)
      (liftM Build.advance >>= fun token => liftM Build.currentTag >>= rightNext token) := by
  have run {next : Token Name → Tag → Parse α} (parser : Parser) :
      (liftM Build.advance >>= fun token => liftM Build.currentTag >>= next token).run parser =
        (next parser.cursor.advance.1 parser.cursor.advance.2.current.tag).run
          (parser.withCursor parser.cursor.advance.2) := rfl
  refine ⟨.bind (.quiet (isQuiet_onCursor Cursor.onward_advance)) fun token =>
    .bind (.quiet fun parser => .refl parser) fun tag => (next token token tag).tame,
    fun here there beside holds ⟨notEnd, isReturn⟩ answer after gives => .inr ?_⟩
  have kept := beside.advance notEnd
  have grows := beside.grows_withCursor (Cursor.onward_advance here.cursor)
    (Cursor.onward_advance there.cursor)
  obtain ⟨_, _, asking⟩ := beside.asking
  rw [Gives, run] at gives
  rw [CatchesUp, run]
  have catches : (rightNext there.cursor.advance.1 there.cursor.advance.2.current.tag).CatchesUp
      seam agree (here.withCursor here.cursor.advance.2) (there.withCursor there.cursor.advance.2)
        answer after := by
    cases isAtEnd : here.cursor.advance.2.isAtEnd with
    | false =>
      have tag : there.cursor.advance.2.current.tag = here.cursor.advance.2.current.tag :=
        kept.tag isAtEnd
      rw [tag]
      exact (next _ _ _).catchesUp rfl kept (known.mono grows holds) isAtEnd gives
    | true =>
      have ends : here.cursor.advance.2.current.tag = .endOfInput := beq_iff_eq.mp isAtEnd
      rw [ends] at gives
      exact (atEnd _ _ _ (asking.returns notEnd isReturn isAtEnd)).catchesUp rfl kept
        (known.mono grows holds) trivial gives
  obtain ⟨other, later, ran, beside', further, agrees⟩ := catches
  exact ⟨other, later, ran, beside', grows.trans further, agrees⟩

/-- The current token, before readings that are asked for its kind only. -/
theorem currentKind {leftNext rightNext : Token Name → Parse α} (isAwake : stance.IsAwake)
    (next : ∀ kind rename span place,
      Follows seam (stance.facing kind.tag) (known.and (.renamed kind rename)) agree
        (leftNext ⟨kind, span⟩) (rightNext ⟨kind.map rename, place⟩)) :
    Follows seam stance known agree (liftM Build.current >>= leftNext)
      (liftM Build.current >>= rightNext) := by
  refine ⟨.bind (.quiet fun parser => .refl parser) fun token =>
    (next token.kind id token.span token.span).tame,
    fun here there beside holds admitted answer after gives => ?_⟩
  obtain ⟨rename, same, renamed⟩ := beside.kind (beside.notAtEnd isAwake admitted)
  have follows := (next here.cursor.current.kind rename here.cursor.current.span
    there.cursor.current.span).follows here there beside ⟨holds, renamed⟩ ⟨admitted, rfl⟩ answer
    after gives
  rw [← same] at follows
  exact follows

/-- The current token, where the text alone has errors if none is left. -/
theorem currentKindOrFail {leftNext rightNext : Token Name → Parse α}
    (next : ∀ kind rename span place,
      Follows seam .awake (known.and (.renamed kind rename)) agree
        (leftNext ⟨kind, span⟩) (rightNext ⟨kind.map rename, place⟩))
    (atEnd : ∀ span, (leftNext ⟨.endOfInput, span⟩).Barren) :
    Follows seam .anywhere known agree (liftM Build.current >>= leftNext)
      (liftM Build.current >>= rightNext) := by
  have awake : Follows seam .awake known agree (liftM Build.current >>= leftNext)
      (liftM Build.current >>= rightNext) :=
    .currentKind Stance.isAwake_awake fun kind rename span place =>
      (next kind rename span place).unfaced
  exact awake.anywhere_of_fails (.ofKind atEnd)

/-- The cursor, before readings that are asked for the kind of the current token and the text of its
name, where the text alone has errors if no token is left. -/
theorem cursorOrFail {leftNext rightNext : Cursor → Parse α}
    (next : ∀ here there : Cursor, ∀ rename : Name → Name,
      there.current.kind = here.current.kind.map rename →
      (∀ name ∈ here.current.kind.name?, here.nameText name = there.nameText (rename name)) →
      Follows seam .awake known agree (leftNext here) (rightNext there))
    (atEnd : ∀ cursor : Cursor, cursor.current.kind = .endOfInput → (leftNext cursor).Barren) :
    Follows seam .anywhere known agree (liftM Build.cursor >>= leftNext)
      (liftM Build.cursor >>= rightNext) := by
  have awake : Follows seam .awake known agree (liftM Build.cursor >>= leftNext)
      (liftM Build.cursor >>= rightNext) := by
    refine ⟨.bind (.quiet fun parser => .refl parser) fun cursor =>
      (next cursor cursor id (by cases cursor.current.kind <;> rfl) fun _ _ => rfl).tame,
      fun here there beside holds notEnd answer after gives => ?_⟩
    obtain ⟨rename, same, renamed⟩ := beside.kind notEnd
    exact (next here.cursor there.cursor rename same fun name member =>
      Agreement.text (renamed name member)).follows here there beside holds notEnd answer after gives
  refine awake.anywhere_of_fails fun here answer after goesOn isAtEnd gives => ?_
  exact (atEnd here.cursor (TokenKind.eq_endOfInput (beq_iff_eq.mp isAtEnd))).fails here answer after
    goesOn gives

/-- The token that is stepped over, before readings that are asked for its kind only. -/
theorem advanceKind {leftNext rightNext : Token Name → Parse α} (isAwake : stance.IsAwake)
    (next : ∀ kind rename span place,
      Follows seam stance.after (known.and (.renamed kind rename)) agree
        (leftNext ⟨kind, span⟩) (rightNext ⟨kind.map rename, place⟩)) :
    Follows seam stance known agree (liftM Build.advance >>= leftNext)
      (liftM Build.advance >>= rightNext) := by
  have split : Build.advance = (do
      let token ← Build.current
      let _ ← Build.advance
      return token) := by
    funext parser
    exact Prod.ext (Cursor.advance_fst _) rfl
  rw [split, liftM_bind, bind_assoc, bind_assoc]
  refine .currentKind isAwake fun kind rename span place => ?_
  rw [liftM_bind, bind_assoc, liftM_bind, bind_assoc]
  refine .bind (.advance (isAwake.facing _)) fun _ _ => ?_
  exact (next kind rename span place).weaken fun _ holds => holds.1

/-- A step over the current token if it has a tag. -/
theorem eat {tag : Tag} :
    Follows seam .inside known .same (liftM (Build.eat tag)) (liftM (Build.eat tag)) := by
  rw [eat_eq, liftM_bind]
  refine .check Stance.isAwake_inside ?_ ?_
  · rw [if_pos rfl, liftM_bind]
    exact .bind (.advance (Stance.isAwake_inside.facing _)) fun _ _ =>
      .of_anywhere (.pure fun _ _ => rfl)
  · rw [if_neg Bool.false_ne_true]
    exact .of_anywhere (.pure fun _ _ => rfl)

/-- A question about the tokens ahead. -/
theorem ask {question other : Lookahead γ} (peeks : question.Peeks) (peeksOther : other.Peeks)
    (agrees : ∀ {left right : Cursor} {tokens others : List (Token String)},
      stance.admits left →
      Cursor.Asking seam.tail tokens others seam.first.spelling seam.second.spelling left right →
      Lookahead.AgreeAt (Cursor.Asking seam.tail tokens others seam.first.spelling
        seam.second.spelling) left right question other) :
    Follows seam stance known .same (liftM (onCursor question)) (liftM (onCursor other)) := by
  refine .step (isQuiet_onCursor peeks.onward) fun _ _ beside _ admitted => ?_
  obtain ⟨_, _, asking⟩ := beside.asking
  obtain ⟨same, kept⟩ := agrees admitted asking
  exact ⟨beside.withCursor ⟨_, _, kept⟩,
    beside.grows_withCursor (peeks.onward _) (peeksOther.onward _), same⟩

/-- A symbol is split. -/
theorem splitSymbol :
    Follows seam .inside known .same (liftM Build.splitSymbol) (liftM Build.splitSymbol) := by
  refine .step (isQuiet_onCursor Cursor.onward_splitSymbol) fun here there beside _ unspent => ?_
  obtain ⟨_, _, asking⟩ := beside.asking
  obtain ⟨same, kept⟩ := asking.splitSymbol unspent
  exact ⟨beside.withCursor kept, beside.grows_withCursor (Cursor.onward_splitSymbol _)
    (Cursor.onward_splitSymbol _), same⟩

/-- A question about the parser whose answer does not matter. -/
theorem noted {step other : Build γ} (still : ∀ parser : Parser, (step parser).2 = parser)
    (stillOther : ∀ parser : Parser, (other parser).2 = parser) :
    Follows seam .anywhere known .any (liftM step) (liftM other) := by
  refine .step (fun parser => ?_) fun here there beside _ _ => ?_
  · rw [still]
    exact .refl parser
  · rw [still, stillOther]
    exact ⟨beside, .refl _, trivial⟩

/-- The same text is interned. -/
theorem intern {text other : String} (same : ∀ sides, known.holds sides → text = other) :
    Follows seam .anywhere known .name (liftM (Build.intern text)) (liftM (Build.intern other)) := by
  refine .step (isQuiet_onCursor fun cursor => cursor.onward_intern text)
    fun here there beside holds _ => ?_
  obtain rfl := same _ holds
  obtain ⟨_, _, asking⟩ := beside.asking
  refine ⟨beside.withCursor ⟨_, _, asking.intern text⟩, beside.grows_withCursor
    (Cursor.onward_intern _ text) (Cursor.onward_intern _ text), ?_⟩
  have sound := asking.inset.pending.sound
  have soundOther := asking.inset.pendingOther.sound
  exact ⟨NameTable.holds_intern sound text, NameTable.holds_intern soundOther text,
    (NameTable.text_intern sound text).trans (NameTable.text_intern soundOther text).symm⟩

/-- A step of the arena. -/
theorem onArena {left right : Arena → γ × Arena} {agree : Agreement γ}
    (grows : ∀ arena : Arena, arena.Grows (left arena).2)
    (growsOther : ∀ arena : Arena, arena.Grows (right arena).2)
    (agrees : ∀ sides, known.holds sides →
      (agree (left sides.left.arena).1 (right sides.right.arena).1).holds
        ⟨{ sides.left with arena := (left sides.left.arena).2 },
          { sides.right with arena := (right sides.right.arena).2 }⟩) :
    Follows seam .anywhere known agree (liftM (Build.onArena left))
      (liftM (Build.onArena right)) :=
  .step (isQuiet_onArena left) fun here there beside holds _ =>
    ⟨beside.withArena _ _, Parser.Beside.grows_withArena (grows _) (growsOther _),
      agrees (here.sides there) holds⟩

/-- A new node. -/
theorem addNode {kind other : NodeKind} (alike : ∀ sides, known.holds sides → kind.Alike sides other)
    (span place : Span) :
    Follows seam .anywhere known .node (liftM (Build.addNode kind span))
      (liftM (Build.addNode other place)) :=
  .onArena (fun arena => arena.grows_add kind span) (fun arena => arena.grows_add other place)
    fun sides holds => (alike sides holds).node
      ⟨⟨sides.left.arena.grows_add kind span, .refl _, id⟩,
        ⟨sides.right.arena.grows_add other place, .refl _, id⟩⟩
      (sides.left.arena.node?_add kind span) (sides.right.arena.node?_add other place)
      (Nat.le_refl _) (Nat.le_refl _)

/-- A new list of children. -/
theorem addList {ids others : Array NodeId}
    (agrees : ∀ sides, known.holds sides → (Agreement.items .node ids others).holds sides) :
    Follows seam .anywhere known .range (liftM (Build.addList ids))
      (liftM (Build.addList others)) := by
  refine .onArena (fun arena => arena.grows_addList ids.toList)
    (fun arena => arena.grows_addList others.toList) fun sides holds => ?_
  refine ⟨Arena.contains_addList _ _, Arena.contains_addList _ _, ?_⟩
  rw [Arena.list_addList, Arena.list_addList]
  exact (Agreement.items .node ids others).mono
    ⟨⟨sides.left.arena.grows_addList ids.toList, .refl _, id⟩,
      ⟨sides.right.arena.grows_addList others.toList, .refl _, id⟩⟩ (agrees sides holds)

/-- A new list of names. -/
theorem addNames {names others : Array Name}
    (agrees : ∀ sides, known.holds sides → (Agreement.items .name names others).holds sides) :
    Follows seam .anywhere known .nameRange (liftM (Build.addNames names))
      (liftM (Build.addNames others)) := by
  refine .onArena (fun arena => arena.grows_addNames names.toList)
    (fun arena => arena.grows_addNames others.toList) fun sides holds => ?_
  refine ⟨Arena.containsNames_addNames _ _, Arena.containsNames_addNames _ _, ?_⟩
  rw [Arena.nameList_addNames, Arena.nameList_addNames]
  exact (Agreement.items .name names others).mono
    ⟨⟨sides.left.arena.grows_addNames names.toList, .refl _, id⟩,
      ⟨sides.right.arena.grows_addNames others.toList, .refl _, id⟩⟩ (agrees sides holds)

/-- A new node over everything from a place to what was consumed last. -/
theorem close {kind other : NodeKind} (alike : ∀ sides, known.holds sides → kind.Alike sides other)
    (start place : Span) :
    Follows seam .anywhere known .node (liftM (Build.close kind start))
      (liftM (Build.close other place)) := by
  rw [Build.close, Build.close, liftM_bind, liftM_bind]
  exact .bind (.noted (fun _ => rfl) fun _ => rfl) fun span other =>
    (addNode alike span other).weaken fun _ holds => holds.1

/-- A node of a single token. -/
theorem leaf {kind other : NodeKind} (alike : ∀ sides, known.holds sides → kind.Alike sides other) :
    Follows seam .awake known .node (liftM (Build.leaf kind)) (liftM (Build.leaf other)) := by
  rw [Build.leaf, Build.leaf, liftM_bind, liftM_bind]
  exact .bind (.advance Stance.isAwake_awake) fun token other =>
    (addNode alike token.span other.span).weaken fun _ holds => holds.1

/-- A step over a token with a tag. -/
theorem expectWith {code : ErrorCode} {tag : Tag} {construct : Construct}
    (real : tag ≠ .endOfInput) :
    Follows seam .anywhere known .any (Parse.expectWith code tag construct)
      (Parse.expectWith code tag construct) :=
  .checkOrFail real (.advance Stance.isAwake_awake) (.unexpected _ _ _)

/-- A step over an identifier. -/
theorem expectIdentifier (construct : Construct) :
    Follows seam .anywhere known (fun named other => Agreement.name named.1 other.1)
      (Parse.expectIdentifier construct) (Parse.expectIdentifier construct) := by
  refine .currentKindOrFail (fun kind rename span place => ?_) fun span => .unexpected _ _ _
  cases kind with
  | identifier name =>
    exact .bind (.advance Stance.isAwake_awake) fun _ _ =>
      .pure fun _ holds => holds.1.2 name rfl
  | _ => exact .barren (.unexpected _ _ _)

/-- A step over a constant. -/
theorem expectConstant (construct : Construct) :
    Follows seam .anywhere known .name (Parse.expectConstant construct)
      (Parse.expectConstant construct) := by
  refine .currentKindOrFail (fun kind rename span place => ?_) fun span => .unexpected _ _ _
  cases kind with
  | constant name =>
    exact .bind (.advance Stance.isAwake_awake) fun _ _ =>
      .pure fun _ holds => holds.1.2 name rfl
  | _ => exact .barren (.unexpected _ _ _)

end Follows

namespace Shuts

/-- Whether the current token is one that closes something, where the parse fails if not. -/
theorem check {leftNext rightNext : Bool → Parse α} {tag : Tag} (closes : tag.closes = true)
    (yes : Follows seam .awake known agree (leftNext true) (rightNext true))
    (no : (leftNext false).Barren) :
    Shuts seam known agree (liftM (Build.check tag) >>= leftNext)
      (liftM (Build.check tag) >>= rightNext) := by
  have real : tag ≠ .endOfInput := by
    rintro rfl
    contradiction
  refine ⟨.checkOrFail real yes no, fun here answer after goesOn spent gives => ?_⟩
  have other : here.cursor.check tag = false := by
    refine beq_false_of_ne fun same => ?_
    have isOpen := spent.closes
    rw [same, closes] at isOpen
    contradiction
  have gave : (leftNext (here.cursor.check tag)).Gives here answer after := gives
  rw [other] at gave
  exact no.fails here answer after goesOn gave

/-- A step over a token that closes something. -/
theorem expect {tag : Tag} (construct : Construct) (closes : tag.closes = true) :
    Shuts seam known .any (Parse.expect tag construct) (Parse.expect tag construct) :=
  .check closes (.advance Stance.isAwake_awake) (.unexpected _ _ _)

/-- A step over the `end` of a block. -/
theorem expectEnd (opener : Tag) (span place : Span) (construct : Construct) :
    Shuts seam known .any (Parse.expectEnd opener span construct)
      (Parse.expectEnd opener place construct) :=
  .check rfl (.bind (.advance Stance.isAwake_awake) fun _ _ => .pure fun _ _ => trivial)
    (.unexpected _ _ fun error =>
      ((error.withFault (.unclosed opener)).openedBy opener span).within construct)

/-- The closing bracket of a list. -/
theorem expectCloser (code : ErrorCode) {closer : Tag} (construct : Construct)
    (closes : closer.closes = true) :
    Shuts seam known .any (Grammar.expectCloser code closer construct)
      (Grammar.expectCloser code closer construct) := by
  have split : Grammar.expectCloser code closer construct =
      liftM (Build.check closer) >>= fun found =>
        if found = true then liftM Build.advance >>= fun _ => Pure.pure ()
        else liftM (Build.unexpected code ((TagSet.singleton closer).insert .comma)) >>= fun error =>
          MonadExcept.throw (error.within construct) := by
    rw [Grammar.expectCloser, eat_eq, liftM_bind, bind_assoc]
    congr 1
    funext found
    cases found <;> rfl
  rw [split]
  exact .check closes (.bind (.advance Stance.isAwake_awake) fun _ _ => .pure fun _ _ => trivial)
    (.unexpected _ _ _)

end Shuts

/-- What is done about a construct that failed reports an error. -/
theorem Barren.recover (grammar : Grammar) {skip : Cursor → γ × Cursor}
    (onward : ∀ cursor : Cursor, cursor.Onward (skip cursor).2) (error : ParseError)
    (start : Grammar.Checkpoint) (ids : Array NodeId) :
    Barren (liftM (do
      grammar.report error
      let _ ← onCursor skip
      return ForInStep.yield (ids.push (← Grammar.abandon start)))) := by
  rw [liftM_bind]
  refine .before (.report grammar error) fun _ => ?_
  rw [liftM_bind]
  refine .bind (.quiet (isQuiet_onCursor onward)) fun _ => ?_
  rw [liftM_bind]
  exact .bind (.quiet (isQuiet_abandon start)) fun _ => .pure _

section

variable {grammar : Grammar} {reading : Parse NodeId} {skip : Cursor → γ × Cursor}
  {ids : Array NodeId}

/-- A construct is read, or it is recovered from. -/
theorem run_attemptStep (here : Parser) :
    (liftM (grammar.attemptStep reading skip ids) : Parse _).run here =
      match (reading.run here).1 with
      | .ok id => (.ok (.yield (ids.push id)), (reading.run here).2)
      | .error error => (liftM (do
          grammar.report error
          let _ ← onCursor skip
          return ForInStep.yield (ids.push (← Grammar.abandon here.checkpoint))) : Parse _).run
            (reading.run here).2 := by
  rw [run_lift]
  cases ran : reading.run here with
  | mk result failed =>
    cases result with
    | ok id => rw [Grammar.attemptStep_ok ran]
    | error error =>
      have runs : grammar.attemptStep reading skip ids here =
        (match (reading.run here).1 with
          | .ok id => (return .yield (ids.push id) : Build (ForInStep (Array NodeId)))
          | .error error => do
            grammar.report error
            let _ ← onCursor skip
            return .yield (ids.push (← Grammar.abandon here.checkpoint))) (reading.run here).2 := rfl
      rw [runs, ran]
      rfl

/-- A construct that is attempted without errors is read. -/
theorem gives_attemptStep (tame : reading.Tame)
    (onward : ∀ cursor : Cursor, cursor.Onward (skip cursor).2) {here after : Parser}
    {answer : ForInStep (Array NodeId)} (goesOn : here.isHalted = false)
    (gives : (liftM (grammar.attemptStep reading skip ids) : Parse _).Gives here answer after) :
    ∃ id, reading.Gives here id after ∧ answer = .yield (ids.push id) := by
  rw [Gives, run_attemptStep] at gives
  cases ran : reading.run here with
  | mk result failed =>
    rw [ran] at gives
    cases result with
    | ok id =>
      obtain ⟨⟨⟩, clean⟩ := gives
      exact ⟨id, ⟨ran, clean⟩, rfl⟩
    | error error =>
      have recovers := Barren.recover grammar onward error here.checkpoint ids
      have gave : (liftM (do
          grammar.report error
          let _ ← onCursor skip
          return ForInStep.yield (ids.push (← Grammar.abandon here.checkpoint))) : Parse _).Gives
            failed answer after := gives
      have clean : failed.errors = #[] := recovers.tame.clean (by rw [gave.1]; exact gave.2)
      have stillOn := tame.goesOn goesOn (by rw [ran]; exact clean)
      rw [ran] at stillOn
      exact (recovers.fails failed answer after stillOn gave).elim

/-- A construct that is attempted. -/
theorem Tame.attemptStep (tame : reading.Tame)
    (onward : ∀ cursor : Cursor, cursor.Onward (skip cursor).2) :
    Tame (liftM (grammar.attemptStep reading skip ids)) := by
  refine ⟨.lift (Grammar.accumulates_attempt tame.accumulates ids), fun here sound => ?_,
    fun here answer after goesOn gives => ?_⟩
  · have read := tame.halts here sound
    rw [run_attemptStep]
    generalize reading.run here = outcome at read
    obtain ⟨result, failed⟩ := outcome
    cases result with
    | ok id => exact read
    | error error => exact (Barren.recover grammar onward error _ ids).tame.halts failed read
  · obtain ⟨id, gave, _⟩ := gives_attemptStep tame onward goesOn gives
    exact tame.onward here id after goesOn gave

/-- An attempt never succeeds without errors where the construct does not. -/
theorem Refuses.attemptStep {starts : Cursor → Prop} (tame : reading.Tame)
    (refuses : reading.Refuses starts) (onward : ∀ cursor : Cursor, cursor.Onward (skip cursor).2) :
    (liftM (grammar.attemptStep reading skip ids) : Parse _).Refuses starts := by
  intro here answer after goesOn start gives
  obtain ⟨id, gave, _⟩ := gives_attemptStep tame onward goesOn gives
  exact refuses here id after goesOn start gave

end

/-- Constructs that are attempted. -/
theorem Follows.attemptStep {first second : Grammar} {left right : Parse NodeId}
    {skip : Cursor → γ × Cursor} (reading : Follows seam stance known .node left right)
    (onward : ∀ cursor : Cursor, cursor.Onward (skip cursor).2) {ids others : Array NodeId}
    {other : Cursor → γ × Cursor}
    (agrees : ∀ sides, known.holds sides → (Agreement.items .node ids others).holds sides) :
    Follows seam stance known (.yielded (.items .node)) (liftM (first.attemptStep left skip ids))
      (liftM (second.attemptStep right other others)) := by
  refine ⟨reading.tame.attemptStep onward,
    fun here there beside holds admitted answer after gives => ?_⟩
  obtain ⟨id, gave, rfl⟩ := gives_attemptStep reading.tame onward beside.goesOn.1 gives
  refine (reading.follows here there beside holds admitted id after gave).imp_right ?_
  rintro ⟨place, later, ran, kept, grows, alike⟩
  refine ⟨.yield (others.push place), later, ?_, kept, grows, ?_⟩
  · rw [run_attemptStep, ran]
  · exact Agreement.push ((Agreement.items .node ids others).mono grows (agrees _ holds)) alike

/-- Texts are interned one after another. -/
theorem Follows.internAll (texts : List String) :
    Follows seam .anywhere known (.list .name) (liftM (texts.mapM Build.intern))
      (liftM (texts.mapM Build.intern)) := by
  induction texts generalizing known with
  | nil => exact .pure fun _ _ => .nil
  | cons text texts ih =>
    rw [List.mapM_cons, liftM_bind]
    refine .bind (.intern fun _ _ => rfl) fun _ _ => ?_
    rw [liftM_bind, liftM_bind]
    exact .bind ih fun _ _ => .pure fun _ holds => .cons holds.1.2 holds.2

/-- The node of a directive with a given text. -/
def directiveOf (token : Token Name) (comment : List Char) : Build NodeId :=
  match token.kind with
  | .versionDirective major minor => addNode (.versionDirective major minor) token.span
  | _ => do
    let names ← (Directive.usesNames comment).mapM Build.intern
    let range ← addNames names.toArray
    addNode (.usesDirective range) token.span

/-- The text of a directive decides about its node. -/
theorem directive_eq (token : Token Name) (parser : Parser) :
    Grammar.directive token parser = directiveOf token (parser.cursor.text token.span) parser := by
  unfold Grammar.directive directiveOf
  generalize token.kind = kind
  cases kind <;> rfl

/-- Nodes of directives that declare the same. -/
theorem Follows.directiveOf {mark other : Token Name} {comment text : List Char}
    (kind : mark.kind = other.kind) (directive : mark.kind.isDirective = true)
    (uses : mark.kind = .usesDirective →
      Directive.usesNames comment = Directive.usesNames text) :
    Follows seam .anywhere known .node (liftM (Parse.directiveOf mark comment))
      (liftM (Parse.directiveOf other text)) := by
  unfold Parse.directiveOf
  rw [← kind]
  generalize mark.kind = kind at directive uses
  cases kind with
  | versionDirective major minor =>
    refine .addNode (fun _ _ => ?_) _ _
    exact ⟨rfl, ⟨nofun, nofun⟩, fun _ _ _ _ => rfl, .nil⟩
  | usesDirective =>
    dsimp only
    rw [uses rfl, liftM_bind, liftM_bind]
    refine .bind (.internAll _) fun names others => ?_
    rw [liftM_bind, liftM_bind]
    refine .bind (.addNames fun _ holds => holds.2) fun _ _ => .addNode (fun sides holds => ?_) _ _
    exact ⟨rfl, ⟨nofun, nofun⟩, fun after grows root place =>
      Agreement.texts_grows holds.2 grows root place, .nil⟩
  | _ => contradiction

/-- Directives are claimed on both sides, or on none. -/
theorem Follows.claim {leftNext rightNext : Option (Token Name) → Parse α}
    {leftClaimed rightClaimed : NodeId → Parse α}
    (isBusy : ∀ (cursor : Cursor) (tokens : List (Token String)), cursor.Pending tokens →
      stance.admits cursor → cursor.Busy)
    (leftSome : ∀ mark, leftNext (some mark) = liftM (Grammar.directive mark) >>= leftClaimed)
    (rightSome : ∀ mark, rightNext (some mark) = liftM (Grammar.directive mark) >>= rightClaimed)
    (claimed : ∀ id other, Follows seam .anywhere (known.and (Agreement.node id other)) agree
      (leftClaimed id) (rightClaimed other))
    (none : Follows seam stance.unclaimed known agree (leftNext none) (rightNext none)) :
    Follows seam stance known agree (liftM (onCursor Cursor.takeDirective) >>= leftNext)
      (liftM (onCursor Cursor.takeDirective) >>= rightNext) := by
  have run {next : Option (Token Name) → Parse α} (parser : Parser) :
      (liftM (onCursor Cursor.takeDirective) >>= next).run parser =
        (next parser.cursor.takeDirective.1).run
          (parser.withCursor parser.cursor.takeDirective.2) := rfl
  refine ⟨.bind (.quiet (isQuiet_onCursor Cursor.onward_takeDirective)) fun found => ?_,
    fun here there beside holds admitted answer after gives => ?_⟩
  · cases found with
    | none => exact none.tame
    | some mark =>
      rw [leftSome]
      exact .bind (.quiet (isQuiet_directive mark)) fun id => (claimed id id).tame
  obtain ⟨tokens, others, asking⟩ := beside.asking
  have some := (isBusy _ _ asking.inset.pending admitted).ne_nil asking.inset.pending
  rw [Gives, run] at gives
  rw [CatchesUp, run]
  rcases asking.inset.takeDirective some with ⟨same, sameOther⟩ |
    ⟨mark, other, _, _, claims, claimsOther, kind, directive, uses, inset⟩
  · rw [same] at gives
    rw [sameOther]
    have unclaimed := congrArg Prod.fst same
    exact none.follows here there beside holds ⟨admitted, unclaimed⟩ answer after gives
  · rw [claims, leftSome] at gives
    rw [claimsOther, rightSome]
    have kept := beside.withCursor ⟨_, _, asking.onward inset here.cursor.onward_takeDirective
      there.cursor.onward_takeDirective⟩
    have grows := beside.grows_withCursor here.cursor.onward_takeDirective
      there.cursor.onward_takeDirective
    have node := Follows.bind (.directiveOf kind directive uses) claimed
    have same (mark : Token Name) (parser : Parser) (next : NodeId → Parse α) :
        (liftM (Grammar.directive mark) >>= next).run parser =
          (liftM (Parse.directiveOf mark (parser.cursor.text mark.span)) >>= next).run parser := by
      rw [run_bind_ok (run_lift _ _), run_bind_ok (run_lift _ _), directive_eq]
    rw [same] at gives ⊢
    refine .inr ?_
    obtain ⟨answer', later, ran, beside', further, agrees⟩ :=
      node.catchesUp rfl kept (known.mono grows holds) trivial gives
    exact ⟨answer', later, ran, beside', grows.trans further, agrees⟩

end Parse

end Vibescript
