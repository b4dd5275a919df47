import Vibescript.Proofs.Parser.Bodies

/-!
# Loops over the text

Every round of a loop takes a token, so no loop runs out of rounds. A list with separators is
read as its items with the separators between them.
-/
namespace Vibescript

namespace Part

/-- Items do not vanish between separators. -/
theorem joined_ne_nil (separator : Part) {items : List Part} (some : items ≠ []) :
    joined separator items ≠ [] := by
  cases items with
  | nil => contradiction
  | cons item items => cases items <;> simp [joined]

/-- Items with a separator after each but the last. -/
theorem joined_concat (separator : Part) (items : List Part) (last : Part) :
    joined separator (items ++ [last]) =
      (items.flatMap fun item => [item, separator]) ++ [last] := by
  induction items with
  | nil => rfl
  | cons item items ih =>
    cases items with
    | nil => rfl
    | cons other items =>
      rw [joined] at ih ⊢
      simp only [List.cons_append, List.intersperse_cons_cons] at ih ⊢
      simp [ih]

/-- Items with a separator after each. -/
theorem flatMap_concat (separator : Part) (items : List Part) (last : Part) :
    ((items ++ [last]).flatMap fun item => [item, separator]) =
      joined separator (items ++ [last]) ++ [separator] := by
  rw [joined_concat]
  simp

/-- Items with commas between them and possibly after the last, of which there is one. -/
theorem commaList_concat (items : List Part) (last : Part) :
    commaList (items ++ [last]) =
      joined (.word .comma) (items ++ [last]) ++ [.trailingComma] := by
  simp [commaList]

end Part

/-- A comma after the last item may be there. -/
theorem Forest.Spells.trailing {forest : Forest} {parts : List Part} {nodes : List NodeId}
    {tokens : List (Token String)} (spells : forest.Spells (parts ++ [.word .comma]) nodes tokens) :
    forest.Spells (parts ++ [.trailingComma]) nodes tokens := by
  obtain ⟨_, _, _, _, rfl, rfl, first, last⟩ := spells.split
  obtain ⟨token, rfl, rfl, written⟩ := last.token_inv
  cases written with
  | token reads known => exact first.append (.of_writes (.comma reads))

/-- A comma after the last item may be missing. -/
theorem Forest.Spells.untrailing {forest : Forest} {parts : List Part} {nodes : List NodeId}
    {tokens : List (Token String)} (spells : forest.Spells parts nodes tokens) :
    forest.Spells (parts ++ [.trailingComma]) nodes tokens := by
  have whole := spells.append (.of_writes .noComma)
  rwa [List.append_nil, List.append_nil] at whole

namespace Parser

variable {soft : SoftNames} {rounds : Nat} {start now : Parser} {grammar : Grammar}
  {tokens taken rest : List (Token String)} {parts : List Part} {α : Type}

/-- Parts were read, and at most so many tokens are left. -/
def ReadingLeft (soft : SoftNames) (rounds : Nat) (start : Parser) (tokens : List (Token String))
    (parts : List Part) (count : Nat) (now : Parser) : Prop :=
  ∃ taken rest, start.Run soft rounds tokens parts taken rest now ∧
    (∀ token ∈ taken.head?, token.kind.isDirective = false) ∧ (parts ≠ [] → taken ≠ []) ∧
    Consumes.weight rest = count

/-- The number of tokens that are left is below the bound on rounds. -/
theorem Reading.left (reading : start.Reading soft rounds tokens parts now) :
    ∃ count < rounds, start.ReadingLeft soft rounds tokens parts count now := by
  obtain ⟨taken, rest, run, opens, filled⟩ := reading
  exact ⟨_, run.readyNow.rounds, taken, rest, run, opens, filled, rfl⟩

/-- A reading with a known number of tokens left is a reading. -/
theorem ReadingLeft.reading {count : Nat}
    (reading : start.ReadingLeft soft rounds tokens parts count now) :
    start.Reading soft rounds tokens parts now := by
  obtain ⟨taken, rest, run, opens, filled, _⟩ := reading
  exact ⟨taken, rest, run, opens, filled⟩

/-- What a round of a loop reads: parts that keep an invariant, or parts that end the loop. -/
def RoundReads (soft : SoftNames) (rounds : Nat) (before : Parser) (rest : List (Token String))
    (invariant final : α → List Part → Prop) (read : List Part) :
    ForInStep α → Parser → Prop
  | .yield state, after => ∃ added, added ≠ [] ∧ before.Reading soft rounds rest added after ∧
      invariant state (read ++ added)
  | .done state, after => ∃ added, before.Reading soft rounds rest added after ∧
      final state (read ++ added)

/-- A loop reads what its rounds read. -/
theorem Reading.loop {round : α → Parse (ForInStep α)}
    (reading : start.Reading soft rounds tokens parts now) (sameRounds : grammar.rounds = rounds)
    (invariant final : α → List Part → Prop)
    (reads : ∀ state read before rest, invariant state read → before.Ready soft rounds rest →
      (round state).Outcome before (RoundReads soft rounds before rest invariant final read)
        fun _ after => before.Strays soft rounds rest after)
    {state : α} (begins : invariant state []) :
    Parse.Outcome (grammar.loop state round) now
      (fun state after => ∃ read, final state read ∧
        start.Reading soft rounds tokens (parts ++ read) after)
      fun _ after => start.Strays soft rounds tokens after := by
  obtain ⟨count, less, left⟩ := reading.left
  have first : ∃ read, invariant state read ∧
      start.ReadingLeft soft rounds tokens (parts ++ read) count now :=
    ⟨[], begins, by rwa [List.append_nil]⟩
  refine Parse.Outcome.repeatWithin (fun count state now => ∃ read,
    invariant state read ∧ start.ReadingLeft soft rounds tokens (parts ++ read) count now)
    (fun count state now holds => ?_) (sameRounds ▸ less) first
  obtain ⟨read, keeps, taken, rest, run, opens, filled, rfl⟩ := holds
  refine (reads state read now rest keeps run.readyNow).mono (fun result after holds => ?_)
    fun _ after strays => strays_append run opens strays
  cases result with
  | yield state =>
    obtain ⟨added, nonempty, ⟨more, left, next, opensMore, filledMore⟩, keeps⟩ := holds
    have fewer := next.passes.moves.consumes.weight_le
    have length := List.length_pos_iff.mpr (filledMore nonempty)
    have whole := run.append next
    rw [List.append_assoc] at whole
    have filledWhole := filled_append filled filledMore
    rw [List.append_assoc] at filledWhole
    exact ⟨Consumes.weight left, by omega, read ++ added, keeps, taken ++ more, left, whole,
      opens_append opens opensMore, filledWhole, rfl⟩
  | done state =>
    obtain ⟨added, next, ends⟩ := holds
    refine ⟨read ++ added, ends, ?_⟩
    rw [← List.append_assoc]
    exact append run opens filled next

/-- One or more items are read with the separator between them. -/
theorem Reading.oneOrMore {item : Parse α} {part : α → Part}
    (reading : start.Reading soft rounds tokens parts now) (sameRounds : grammar.rounds = rounds)
    (separator : Tag) (spelled : separator.spelling?.isSome = true)
    (reads : item.Reads soft rounds fun answer => [part answer]) :
    Parse.Outcome (grammar.oneOrMore separator item) now
      (fun items after => items ≠ #[] ∧ start.Reading soft rounds tokens
        (parts ++ Part.joined (.word separator spelled) (items.toList.map part)) after)
      fun _ after => start.Strays soft rounds tokens after := by
  refine Parse.Outcome.imp (reading.loop sameRounds
    (fun items read =>
      read = (items.toList.map part).flatMap fun item => [item, .word separator spelled])
    (fun items read => items ≠ #[] ∧
      read = Part.joined (.word separator spelled) (items.toList.map part))
    (fun items read before rest keeps ready => ?_) rfl) ?_
  · subst keeps
    refine .bind ((reads before rest ready trivial).imp fun answer after read => ?_)
    refine .bind ((read.eat separator spelled).imp fun eaten final result => ?_)
    rcases result with ⟨rfl, more⟩ | ⟨rfl, rfl, _⟩
    · exact .pure ⟨_, by simp, more, by simp⟩
    · exact .pure ⟨_, read, by simp, by simp [Part.joined_concat]⟩
  · rintro items after ⟨_, ⟨filled, same⟩, read⟩
    exact ⟨filled, same ▸ read⟩

/-- Items are read with commas between them and possibly after the last, up to a closer. -/
theorem Reading.itemsUntil {item : Parse α} {part : α → Part}
    (reading : start.Reading soft rounds tokens parts now) (sameRounds : grammar.rounds = rounds)
    (closer : Tag) (reads : item.Reads soft rounds fun answer => [part answer]) :
    Parse.Outcome (grammar.itemsUntil closer item) now
      (fun items after => start.Reading soft rounds tokens
        (parts ++ Part.commaList (items.toList.map part)) after)
      fun _ after => start.Strays soft rounds tokens after := by
  refine Parse.Outcome.imp (reading.loop sameRounds
    (fun items read =>
      read = (items.toList.map part).flatMap fun item => [item, .word .comma])
    (fun items read =>
      (read = (items.toList.map part).flatMap fun item => [item, .word .comma]) ∨
      (items ≠ #[] ∧ read = Part.joined (.word .comma) (items.toList.map part)))
    (fun items read before rest keeps ready => ?_) rfl) ?_
  rotate_left
  · intro items after ⟨_, final, read⟩
    rcases List.eq_nil_or_concat (items.toList.map part) with none | ⟨others, last, same⟩
    · rw [none] at final ⊢
      rcases final with rfl | ⟨filled, _⟩
      · exact read
      · simp_all
    · rw [same, List.concat_eq_append] at final ⊢
      rw [Part.commaList_concat, ← List.append_assoc]
      rcases final with rfl | ⟨_, rfl⟩
      · rw [Part.flatMap_concat, ← List.append_assoc] at read
        exact read.recast (fun _ _ => .trailing) (by simp)
      · exact read.recast (fun _ _ => .untrailing) (by simp [Part.joined_concat])
  · subst keeps
    refine Parse.outcome_check.mpr ?_
    by_cases closes : before.cursor.check closer = true
    · rw [if_pos closes]
      exact .pure ⟨[], .refl ready, .inl (by simp)⟩
    · rw [if_neg closes]
      refine .bind ((reads before rest ready trivial).imp fun answer after read => ?_)
      refine .bind ((read.eat .comma rfl).imp fun eaten final result => ?_)
      rcases result with ⟨rfl, more⟩ | ⟨rfl, rfl, _⟩
      · exact .pure ⟨_, by simp, more, by simp⟩
      · exact .pure ⟨_, read, .inr (by simp [Part.joined_concat])⟩

/-- Clauses that begin with a keyword are read one after another. -/
theorem Reading.clauses {clause : Parse NodeId} {category : Category} {keyword : Tag}
    (reading : start.Reading soft rounds tokens parts now) (sameRounds : grammar.rounds = rounds)
    (reads : clause.ReadsAt soft rounds keyword fun id => [.node category id]) :
    Parse.Outcome (grammar.clauses keyword clause) now
      (fun ids after => start.Reading soft rounds tokens
        (parts ++ ids.toList.map (.node category)) after)
      fun _ after => start.Strays soft rounds tokens after := by
  refine Parse.Outcome.imp (reading.loop sameRounds
    (fun ids read => read = ids.toList.map (.node category))
    (fun ids read => read = ids.toList.map (.node category))
    (fun ids read before rest keeps ready => ?_) rfl)
    fun ids after ⟨_, same, read⟩ => same ▸ read
  · subst keeps
    refine Parse.outcome_check.mpr ?_
    by_cases opens : before.cursor.check keyword = true
    · rw [if_pos opens]
      exact .bind ((reads before rest ready (beq_iff_eq.mp opens)).imp
        fun id after read => .pure ⟨_, by simp, read, by simp⟩)
    · rw [if_neg opens]
      exact .pure ⟨[], .refl ready, by simp⟩

end Parser

end Vibescript
