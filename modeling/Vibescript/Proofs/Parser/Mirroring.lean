import Vibescript.Proofs.Parser.Rounds
import Vibescript.Proofs.Parser.Tracking

/-!
# What two parses have in common

A parse of a text mirrors one of its respelling when it goes on as that one does, unless one of them
meets an error: the parse of the respelling any error, the parse of the text one of a certain kind.
Errors are never taken back, so what is put together of readings that mirror each other does so
itself.
-/
namespace Vibescript

open Build Parse Grammar

/-- The first error that was reported meets a condition. -/
def Parser.Errs (condition : ParseError → Prop) (parser : Parser) : Prop :=
  ∃ error ∈ parser.errors.toList.head?, condition error

/-- The first error, reported or not, meets a condition. -/
inductive Parse.Fails {α : Type} (condition : ParseError → Prop) :
    Except ParseError α × Parser → Prop
  /-- It was reported. -/
  | reported {result : Except ParseError α} {parser : Parser} (errs : parser.Errs condition) :
    Fails condition (result, parser)
  /-- The reading failed with it. -/
  | thrown {error : ParseError} {parser : Parser} (none : parser.errors = #[])
    (goesOn : parser.isHalted = false) (holds : condition error) :
    Fails condition (.error error, parser)

/-- The outcomes of two readings mirror each other: the first fails, or the second does with an error
of a certain kind, or both succeed with answers that agree, and the parsers track each other. -/
inductive Parse.Mirrored {α β : Type} (tracks : Parser → Parser → Prop)
    (cuts : ParseError → Prop) (agree : α → β → Prop) :
    Except ParseError α × Parser → Except ParseError β × Parser → Prop
  /-- The first fails. -/
  | refused {left : Except ParseError α × Parser} {right : Except ParseError β × Parser}
    (fails : Fails (fun _ => True) left) : Mirrored tracks cuts agree left right
  /-- The second fails. -/
  | cut {left : Except ParseError α × Parser} {right : Except ParseError β × Parser}
    (fails : Fails cuts right) : Mirrored tracks cuts agree left right
  /-- Both go on. -/
  | same {answer : α} {other : β} {here there : Parser} (agrees : agree answer other)
    (kept : tracks here there) : Mirrored tracks cuts agree (.ok answer, here) (.ok other, there)

/-- From parsers that track each other, the outcomes of two readings mirror each other. -/
def Parse.Mirrors {α β : Type} (tracks : Parser → Parser → Prop) (cuts : ParseError → Prop)
    (agree : α → β → Prop) (left : Parse α) (right : Parse β) : Prop :=
  ∀ here there : Parser, tracks here there →
    Mirrored tracks cuts agree (left.run here) (right.run there)

namespace Parser.Errs

variable {condition : ParseError → Prop} {before after : Parser}

/-- The first error stays the first. -/
theorem mono (errs : before.Errs condition)
    (grows : before.errors.toList <+: after.errors.toList) : after.Errs condition := by
  obtain ⟨error, isFirst, holds⟩ := errs
  obtain ⟨rest, isErrors⟩ := List.head?_eq_some_iff.mp isFirst
  obtain ⟨more, whole⟩ := grows
  refine ⟨error, ?_, holds⟩
  rw [← whole, isErrors]
  rfl

/-- An error that was reported stays reported. -/
theorem accumulates (errs : before.Errs condition) {α : Type} {step : Build α}
    {possible : α → Prop} (accumulates : step.Accumulates possible) :
    (step before).2.Errs condition :=
  errs.mono (accumulates before).1

end Parser.Errs

namespace Parse

variable {α β : Type} {condition cuts : ParseError → Prop} {tracks : Parser → Parser → Prop}

/-- A failure is reported. -/
theorem Fails.report {result : Except ParseError α} {error : ParseError} {parser : Parser}
    (fails : Fails condition (result, parser)) (isError : result = .error error)
    (grammar : Grammar) : (grammar.report error parser).2.Errs condition := by
  cases fails with
  | reported errs => exact errs.accumulates (.report grammar error)
  | thrown none goesOn holds =>
    obtain rfl := Except.error.inj isError
    refine ⟨_, ?_, holds⟩
    show _ ∈ (Parser.reported grammar.options.recovery _ parser).errors.toList.head?
    rw [Parser.reported, goesOn, if_neg Bool.false_ne_true, none]
    rfl

/-- A reading that begins with one that fails. -/
theorem Fails.bind {reading : Parse α} {next : α → Parse β} {parser : Parser}
    (fails : Fails condition (reading.run parser))
    (accumulates : ∀ answer, (reading.run parser).1 = .ok answer →
      (next answer).Accumulates fun _ => True) :
    Fails condition ((reading >>= next).run parser) := by
  rcases ran : reading.run parser with ⟨result, middle⟩
  rw [ran] at fails accumulates
  cases result with
  | ok answer =>
    rw [run_bind_ok ran]
    cases fails with
    | reported errs => exact .reported (errs.accumulates (accumulates answer rfl))
  | error error =>
    rw [run_bind_error ran]
    cases fails with
    | reported errs => exact .reported errs
    | thrown none goesOn holds => exact .thrown none goesOn holds

namespace Mirrored

variable {γ δ : Type} {between : α → β → Prop} {agree : γ → δ → Prop} {left : Parse α}
  {right : Parse β} {leftNext : α → Parse γ} {rightNext : β → Parse δ} {here there : Parser}

/-- Less is known of the answers. -/
theorem mono {weaker : α → β → Prop} {first : Except ParseError α × Parser}
    {second : Except ParseError β × Parser} (mirrored : Mirrored tracks cuts between first second)
    (weakens : ∀ answer other, between answer other → weaker answer other) :
    Mirrored tracks cuts weaker first second := by
  cases mirrored with
  | refused fails => exact .refused fails
  | cut fails => exact .cut fails
  | same agrees kept => exact .same (weakens _ _ agrees) kept

/-- One reading after another. -/
theorem bind {later : Parser → Parser → Prop}
    (first : Mirrored tracks cuts between (left.run here) (right.run there))
    (leftAdds : ∀ answer, (left.run here).1 = .ok answer →
      (leftNext answer).Accumulates fun _ => True)
    (rightAdds : ∀ other, (right.run there).1 = .ok other →
      (rightNext other).Accumulates fun _ => True)
    (second : ∀ answer other here there, between answer other → tracks here there →
      Mirrored later cuts agree ((leftNext answer).run here) ((rightNext other).run there)) :
    Mirrored later cuts agree ((left >>= leftNext).run here) ((right >>= rightNext).run there) := by
  generalize ran : left.run here = leftRan at first
  generalize ranOther : right.run there = rightRan at first
  cases first with
  | refused fails => exact .refused (Fails.bind (ran ▸ fails) leftAdds)
  | cut fails => exact .cut (Fails.bind (ranOther ▸ fails) rightAdds)
  | same agrees kept =>
    rw [run_bind_ok ran, run_bind_ok ranOther]
    exact second _ _ _ _ agrees kept

end Mirrored

namespace Mirrors

variable {agree : α → β → Prop}

/-- Two answers. -/
theorem pure {answer : α} {other : β} (agrees : agree answer other) :
    Mirrors tracks cuts agree (Pure.pure answer) (Pure.pure other) :=
  fun _ _ kept => .same agrees kept

/-- Two steps, which cannot fail. -/
theorem lift {left : Build α} {right : Build β}
    (steps : ∀ here there : Parser, tracks here there →
      agree (left here).1 (right there).1 ∧ tracks (left here).2 (right there).2) :
    Mirrors tracks cuts agree (liftM left) (liftM right) :=
  fun here there kept => .same (steps here there kept).1 (steps here there kept).2

/-- Less is known of the answers. -/
theorem mono {weaker : α → β → Prop} {left : Parse α} {right : Parse β}
    (mirrors : Mirrors tracks cuts agree left right)
    (weakens : ∀ answer other, agree answer other → weaker answer other) :
    Mirrors tracks cuts weaker left right :=
  fun here there kept => (mirrors here there kept).mono weakens

/-- A loop of which two states agree goes on with a round that adds errors at most. -/
theorem adds_rounds {step : α → Parse (ForInStep α)} {possible : α → Prop}
    (adds : ∀ state, possible state → (step state).Accumulates fun result => possible result.value)
    (count : Nat) {result : ForInStep α} (holds : possible result.value) :
    Parse.Accumulates (match result with
      | .done state => Pure.pure state
      | .yield state => Grammar.repeatWithin step count state) fun _ => True := by
  cases result with
  | done state => exact .pure trivial
  | yield state => exact (Parse.Upholds.repeatWithin adds count holds).mono fun _ _ => trivial

/-- A loop. -/
theorem repeatWithin {left right : α → Parse (ForInStep α)} {agree : α → α → Prop}
    (leftAdds : ∀ state other, agree state other →
      (left state).Accumulates fun result => ∃ other, agree result.value other)
    (rightAdds : ∀ state other, agree state other →
      (right other).Accumulates fun result => ∃ state, agree state result.value)
    (rounds : ∀ state other, agree state other →
      Mirrors tracks cuts (RoundsAgree agree) (left state) (right other))
    (count : Nat) {start other : α} (starts : agree start other) :
    Mirrors tracks cuts agree (Grammar.repeatWithin left count start)
      (Grammar.repeatWithin right count other) := by
  induction count generalizing start other with
  | zero => exact .pure starts
  | succ count ih =>
    intro here there kept
    refine Mirrored.bind (rounds _ _ starts here there kept) (fun result ran => ?_)
      (fun result ran => ?_) fun result others here there agrees kept => ?_
    · exact @adds_rounds _ left (fun state => ∃ other, agree state other)
        (fun state ⟨other, agrees⟩ => leftAdds state other agrees) count _
        ((leftAdds _ _ starts here).2 result ran)
    · exact @adds_rounds _ right (fun other => ∃ state, agree state other)
        (fun other ⟨state, agrees⟩ => rightAdds state other agrees) count _
        ((rightAdds _ _ starts there).2 result ran)
    · cases agrees with
      | done agrees => exact .same agrees kept
      | yield agrees => exact ih agrees here there kept

end Mirrors

end Parse

namespace Grammar

variable {source : String} {rounds : Nat} {cuts : ParseError → Prop} {first second : Grammar}
  {outer : Prop} {α : Type}

/-- Readings in lockstep mirror each other, if those one level deeper do, and the bodies and the
readings that are taken for granted. -/
theorem Lockstep.mirrors {agree : α → α → Prop} {left right : Parse α}
    (reading : Lockstep first second False outer agree left right)
    (firstPiles : first.Piles) (secondPiles : second.Piles)
    (deeper : ∀ request, request ≠ .statement →
      Parse.Mirrors (Parser.Tracks source first.soft second.soft rounds) cuts (fun _ _ => True)
        (first.deeper request) (second.deeper request))
    (body : ∀ terminators : TagSet, terminators.union .bodyEnd = .bodyEnd →
      Parse.Mirrors (Parser.Tracks source first.soft second.soft rounds) cuts (fun _ _ => True)
        (liftM (first.body terminators)) (liftM (second.body terminators)))
    (members : outer → Parse.Mirrors (Parser.Tracks source first.soft second.soft rounds) cuts
      (fun items others => items.size = others.size) (liftM first.classBody)
        (liftM second.classBody)) :
    Parse.Mirrors (Parser.Tracks source first.soft second.soft rounds) cuts agree left right := by
  have piles : outer → first.classBody.Accumulates (fun _ => True) ∧
      second.classBody.Accumulates fun _ => True :=
    fun _ => ⟨firstPiles.classBody, secondPiles.classBody⟩
  induction reading with
  | pure agrees => exact .pure agrees
  | bind reading next ih ihNext =>
    rintro here there kept
    obtain ⟨leftAdds, rightAdds⟩ := reading.upholds kept.meets firstPiles secondPiles piles
    have nexts (answer other) (agrees) :=
      (next answer other agrees).upholds kept.meets firstPiles secondPiles piles
    refine Mirrored.bind (ih here there kept) (fun answer ran => ?_) (fun other ran => ?_)
      fun answer other here there agrees kept => ihNext answer other agrees here there kept
    · obtain ⟨other, agrees⟩ := (leftAdds here).2 answer ran
      exact (nexts answer other agrees).1.mono fun _ _ => trivial
    · obtain ⟨answer, agrees⟩ := (rightAdds there).2 other ran
      exact (nexts answer other agrees).2.mono fun _ _ => trivial
  | imp _ weakens ih => exact ih.mono weakens
  | cursor => exact .lift fun here there kept => ⟨⟨kept.current, False.elim⟩, kept⟩
  | still leftStill rightStill agrees =>
    exact .lift fun here there kept =>
      ⟨(agrees here there False.elim).1, kept.still leftStill rightStill⟩
  | advance =>
    refine .lift fun here there kept => ⟨?_, kept.advance⟩
    show here.cursor.advance.1.kind.Matches _ _ _ there.cursor.advance.1.kind
    rw [here.cursor.advance_fst, there.cursor.advance_fst]
    exact kept.current
  | splitSymbol => exact .lift fun here there kept => kept.splitSymbol
  | ask byTags => exact .lift fun here there kept => kept.ask byTags
  | throw =>
    rintro here there ⟨_, _, unspoilt, _⟩
    exact .refused (.thrown unspoilt.errors unspoilt.goesOn trivial)
  | @report error other _ =>
    rintro here there ⟨_, _, unspoilt, _⟩
    have thrown : @Parse.Fails Unit (fun _ => True) (.error error, here) :=
      .thrown unspoilt.errors unspoilt.goesOn trivial
    exact .refused (.reported (thrown.report rfl first))
  | @deeper request nested => exact (deeper request nested).mono fun _ _ _ => False.elim
  | @body terminators closes => exact (body terminators closes).mono fun _ _ _ => False.elim
  | classBody isOuter => exact (members isOuter).mono fun _ _ same => ⟨same, False.elim⟩
  | loop count starts rounds ih =>
    intro here there kept
    have adds (state other) (agrees) :=
      (rounds state other agrees).upholds kept.meets firstPiles secondPiles piles
    refine Parse.Mirrors.repeatWithin (fun state other agrees => ?_) (fun state other agrees => ?_)
      ih count starts here there kept
    · exact (adds state other agrees).1.mono fun result ⟨_, agree⟩ => ⟨_, agree.value⟩
    · exact (adds state other agrees).2.mono fun result ⟨_, agree⟩ => ⟨_, agree.value⟩

end Grammar

end Vibescript
