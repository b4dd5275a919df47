import Vibescript.Proofs.Cursor.Moves
import Vibescript.Proofs.Parser.Outcome
import Vibescript.Proofs.Tree.Spelling

/-!
# What a parse has read

`Parser.Run` relates the parser at the start of a construct to the parser at some later place in
it: the tokens taken in between are what some parts of a production are written with, and the
nodes added in between are exactly the nodes below those parts. A construct that fails leaves a
parser that only passed over tokens.
-/
namespace Vibescript

/-- The soft keywords in their order. -/
def SoftNames.all (soft : SoftNames) : List Name :=
  [soft.importName, soft.asKey, soft.property, soft.getter, soft.setter]

/-- The soft keywords with their texts. -/
def SoftNames.spelling (soft : SoftNames) : List (Name × String) := soft.all.zip softKeywords

namespace Parser

/-- The nodes built so far, with their names. The forest is damaged once an error was met. -/
def forest (parser : Parser) : Forest :=
  ⟨parser.arena, parser.cursor.lexer.names,
    parser.errors ≠ #[] ∨ parser.cursor.lexer.errors ≠ #[]⟩

/-- A parser can read on: tokens are pending, fewer than any loop has rounds. -/
structure Ready (soft : SoftNames) (rounds : Nat) (parser : Parser)
    (tokens : List (Token String)) : Prop where
  /-- The tokens are pending. -/
  pending : parser.cursor.Pending tokens
  /-- No loop runs out of rounds. -/
  rounds : Consumes.weight tokens < rounds
  /-- The soft keywords are known. -/
  soft : parser.cursor.lexer.names.Knows soft.spelling
  /-- Only an error halts a parser. -/
  halted : parser.isHalted = true → parser.errors ≠ #[]

/-- A parser passes over tokens; it may build nodes and report errors. -/
structure Passes (before : Parser) (tokens taken rest : List (Token String)) (after : Parser) :
    Prop where
  /-- The tokens are taken. -/
  moves : before.cursor.Moves tokens taken rest after.cursor
  /-- Nodes are added. -/
  arena : before.arena.Grows after.arena
  /-- Errors are added. -/
  errors : before.errors.toList <+: after.errors.toList
  /-- Only an error halts the parser. -/
  halted : after.isHalted = true → before.isHalted = true ∨ after.errors ≠ #[]

/-- A list that starts with a list that is not empty is not empty. -/
theorem ne_empty_mono {α : Type} {before after : Array α}
    (grows : before.toList <+: after.toList) (some : before ≠ #[]) : after ≠ #[] := by
  rintro rfl
  exact some (by simpa using grows)

variable {soft : SoftNames} {rounds : Nat} {first second third : Parser}
  {tokens taken middle more rest : List (Token String)}

/-- Passing over nothing. -/
theorem Passes.refl (pending : first.cursor.Pending tokens) : first.Passes tokens [] tokens first :=
  ⟨.refl pending, .refl _, List.prefix_rfl, .inl⟩

/-- Passing over tokens twice. -/
theorem Passes.trans (left : first.Passes tokens taken middle second)
    (right : second.Passes middle more rest third) :
    first.Passes tokens (taken ++ more) rest third := by
  refine ⟨left.moves.trans right.moves, left.arena.trans right.arena,
    left.errors.trans right.errors, fun halted => ?_⟩
  rcases right.halted halted with before | errors
  · exact (left.halted before).imp_right (ne_empty_mono right.errors)
  · exact .inr errors

/-- The forest grows while tokens are passed over. -/
theorem Passes.forest (passes : first.Passes tokens taken rest second) :
    first.forest.Grows second.forest := by
  refine ⟨passes.arena, passes.moves.names, fun damaged => ?_⟩
  rcases damaged with errors | lexical
  · exact .inl (ne_empty_mono passes.errors errors)
  · exact .inr (ne_empty_mono passes.moves.errors lexical)

/-- After tokens were passed over, the parser can read on. -/
theorem Passes.ready (passes : first.Passes tokens taken rest second)
    (ready : first.Ready soft rounds tokens) : second.Ready soft rounds rest := by
  refine ⟨passes.moves.pending, ?_, ready.soft.mono passes.moves.names, fun halted => ?_⟩
  · have less := passes.moves.consumes.weight_le
    have bound := ready.rounds
    omega
  · rcases passes.halted halted with before | errors
    · exact ne_empty_mono passes.errors (ready.halted before)
    · exact errors

/-- The nodes built between two parsers. -/
def nodesSince (before after : Parser) : List NodeId :=
  Arena.idsFrom before.arena.size (after.arena.size - before.arena.size)

/-- From one parser to another, some parts of a production were read. -/
structure Run (soft : SoftNames) (rounds : Nat) (start : Parser) (tokens : List (Token String))
    (parts : List Part) (taken rest : List (Token String)) (now : Parser) : Prop where
  /-- The parser could read. -/
  ready : start.Ready soft rounds tokens
  /-- It passed over tokens. -/
  passes : start.Passes tokens taken rest now
  /-- The parts are written with these tokens, and the nodes below them are the new ones. -/
  spells : now.forest.Spells parts (start.nodesSince now) taken
  /-- The new uses directives declare the names in their comments. -/
  declares : ∀ id ∈ start.nodesSince now,
    now.arena.Declares now.cursor.lexer.names now.cursor.source id

/-- Parts were read, beginning at a token that is no directive. -/
def Reading (soft : SoftNames) (rounds : Nat) (start : Parser) (tokens : List (Token String))
    (parts : List Part) (now : Parser) : Prop :=
  ∃ taken rest, start.Run soft rounds tokens parts taken rest now ∧
    (∀ token ∈ taken.head?, token.kind.isDirective = false) ∧ (parts ≠ [] → taken ≠ [])

/-- Some tokens were passed over, beginning at one that is no directive. -/
def Strays (soft : SoftNames) (rounds : Nat) (start : Parser) (tokens : List (Token String))
    (now : Parser) : Prop :=
  ∃ taken rest, start.Ready soft rounds tokens ∧ start.Passes tokens taken rest now ∧
    ∀ token ∈ taken.head?, token.kind.isDirective = false

variable {start now after : Parser} {parts others : List Part}

/-- The nodes built in two stretches. -/
theorem nodesSince_append (left : first.arena.Grows second.arena)
    (right : second.arena.Grows third.arena) :
    first.nodesSince second ++ second.nodesSince third = first.nodesSince third := by
  obtain ⟨early, middle⟩ := Nat.le.dest left.size_le
  obtain ⟨late, whole⟩ := Nat.le.dest right.size_le
  rw [nodesSince, nodesSince, nodesSince, ← whole, ← middle, Nat.add_assoc,
    Nat.add_sub_cancel_left, Nat.add_sub_cancel_left, ← Nat.add_assoc, Nat.add_sub_cancel_left,
    Arena.idsFrom_append]

/-- The nodes built since a parser are in the arena. -/
theorem lt_of_mem_nodesSince (passes : first.Passes tokens taken rest second) {id : NodeId}
    (member : id ∈ first.nodesSince second) : id.index < second.arena.size := by
  have size := passes.arena.size_le
  obtain ⟨index, inside, rfl⟩ := List.mem_map.mp member
  have bound := (List.mem_range'_1.mp inside).2
  show index < second.arena.size
  omega

/-- A uses directive declares the same names while tokens are passed over. -/
theorem Passes.declares (passes : first.Passes tokens taken rest second) {id : NodeId}
    (declares : first.arena.Declares first.cursor.lexer.names first.cursor.source id)
    (inside : id.index < first.arena.size) :
    second.arena.Declares second.cursor.lexer.names second.cursor.source id := by
  rw [passes.moves.source]
  exact declares.mono passes.arena passes.moves.names inside

namespace Run

/-- Tokens that were passed over are read as parts that they write, when no node was built. -/
theorem of_passes (ready : start.Ready soft rounds tokens)
    (passes : start.Passes tokens taken rest now) (size : now.arena.size = start.arena.size)
    (spells : now.forest.Spells parts [] taken) :
    start.Run soft rounds tokens parts taken rest now := by
  have none : start.nodesSince now = [] := by
    rw [nodesSince, size, Nat.sub_self, Arena.idsFrom_zero]
  refine ⟨ready, passes, ?_, ?_⟩ <;> rw [none]
  · exact spells
  · exact List.forall_mem_nil _

/-- Nothing was read yet. -/
theorem refl (ready : start.Ready soft rounds tokens) :
    start.Run soft rounds tokens [] [] tokens start :=
  .of_passes ready (.refl ready.pending) rfl .nil

/-- Parts that were read one after another. -/
theorem append (left : start.Run soft rounds tokens parts taken middle now)
    (right : now.Run soft rounds middle others more rest after) :
    start.Run soft rounds tokens (parts ++ others) (taken ++ more) rest after := by
  refine ⟨left.ready, left.passes.trans right.passes, ?_, ?_⟩ <;>
    rw [← nodesSince_append left.passes.arena right.passes.arena]
  · exact (left.spells.mono right.passes.forest).append right.spells
  · refine List.forall_mem_append.mpr ⟨fun id member => ?_, right.declares⟩
    exact right.passes.declares (left.declares id member) (lt_of_mem_nodesSince left.passes member)

/-- The parser can read on. -/
theorem readyNow (run : start.Run soft rounds tokens parts taken rest now) :
    now.Ready soft rounds rest := run.passes.ready run.ready

end Run

/-- Two stretches begin at an ordinary token when both do. -/
theorem opens_append (left : ∀ token ∈ taken.head?, token.kind.isDirective = false)
    (right : ∀ token ∈ more.head?, token.kind.isDirective = false) :
    ∀ token ∈ (taken ++ more).head?, token.kind.isDirective = false := by
  cases taken with
  | nil => simpa using right
  | cons token taken => simpa using left

/-- What follows a stretch that is not empty does not matter to how it begins. -/
theorem opens_of_ne_nil (opens : ∀ token ∈ taken.head?, token.kind.isDirective = false)
    (filled : taken ≠ []) (more : List (Token String)) :
    ∀ token ∈ (taken ++ more).head?, token.kind.isDirective = false := by
  obtain ⟨token, others, rfl⟩ := List.exists_cons_of_ne_nil filled
  exact opens

/-- Two stretches have a token when one of them has. -/
theorem filled_append (left : parts ≠ [] → taken ≠ []) (right : others ≠ [] → more ≠ []) :
    parts ++ others ≠ [] → taken ++ more ≠ [] := by
  intro some none
  obtain ⟨rfl, rfl⟩ := List.append_eq_nil_iff.mp none
  cases parts with
  | nil => exact right some rfl
  | cons part parts => exact left (List.cons_ne_nil _ _) rfl

namespace Reading

/-- Nothing was read yet. -/
theorem refl (ready : start.Ready soft rounds tokens) :
    start.Reading soft rounds tokens [] start :=
  ⟨[], tokens, .refl ready, by simp, by simp⟩

/-- Parts that were read one after another. -/
theorem append (left : start.Run soft rounds tokens parts taken middle now)
    (opens : ∀ token ∈ taken.head?, token.kind.isDirective = false)
    (filled : parts ≠ [] → taken ≠ [])
    (right : now.Reading soft rounds middle others after) :
    start.Reading soft rounds tokens (parts ++ others) after := by
  obtain ⟨more, rest, run, opensMore, filledMore⟩ := right
  exact ⟨taken ++ more, rest, left.append run, opens_append opens opensMore,
    filled_append filled filledMore⟩

/-- The parser can still fail. -/
theorem strays (reading : start.Reading soft rounds tokens parts now) :
    start.Strays soft rounds tokens now := by
  obtain ⟨taken, rest, run, opens, _⟩ := reading
  exact ⟨taken, rest, run.ready, run.passes, opens⟩

/-- The parser can fail after it passed over more tokens. -/
theorem strays_append (left : start.Run soft rounds tokens parts taken middle now)
    (opens : ∀ token ∈ taken.head?, token.kind.isDirective = false)
    (right : now.Strays soft rounds middle after) : start.Strays soft rounds tokens after := by
  obtain ⟨more, rest, _, passes, opensMore⟩ := right
  exact ⟨taken ++ more, rest, left.ready, left.passes.trans passes, opens_append opens opensMore⟩

/-- What was read can be seen as other parts, with the same tokens and the same nodes. -/
theorem recast (reading : start.Reading soft rounds tokens parts now)
    (same : ∀ nodes taken, now.forest.Spells parts nodes taken → now.forest.Spells others nodes taken)
    (some : others ≠ [] → parts ≠ []) : start.Reading soft rounds tokens others now := by
  obtain ⟨taken, rest, run, opens, filled⟩ := reading
  exact ⟨taken, rest, ⟨run.ready, run.passes, same _ _ run.spells, run.declares⟩, opens,
    filled ∘ some⟩

end Reading

end Parser

/-- From wherever it can begin at a token that meets a condition, a reading reads some parts, or it
fails after it passed over some tokens. -/
def Parse.ReadsWhen {α : Type} (soft : SoftNames) (rounds : Nat)
    (condition : TokenKind Name → Prop) (reading : Parse α) (parts : α → List Part) : Prop :=
  ∀ (start : Parser) (tokens : List (Token String)), start.Ready soft rounds tokens →
    condition start.cursor.current.kind →
    reading.Outcome start
      (fun answer after => start.Reading soft rounds tokens (parts answer) after)
      fun _ after => start.Strays soft rounds tokens after

/-- A reading that can begin at any token. -/
def Parse.Reads {α : Type} (soft : SoftNames) (rounds : Nat) (reading : Parse α)
    (parts : α → List Part) : Prop :=
  reading.ReadsWhen soft rounds (fun _ => True) parts

/-- A reading that begins at a token with a tag. -/
def Parse.ReadsAt {α : Type} (soft : SoftNames) (rounds : Nat) (tag : Tag) (reading : Parse α)
    (parts : α → List Part) : Prop :=
  reading.ReadsWhen soft rounds (fun kind => kind.tag = tag) parts

/-- A reading goes on with another that can begin where it stands. -/
theorem Parser.Reading.andThenWhen {soft : SoftNames} {rounds : Nat} {start now : Parser}
    {tokens : List (Token String)} {parts : List Part} {α : Type} {reading : Parse α}
    {read : α → List Part} (before : start.Reading soft rounds tokens parts now)
    (condition : TokenKind Name → Prop)
    (next : reading.ReadsWhen soft rounds condition read)
    (current : condition now.cursor.current.kind) :
    reading.Outcome now
      (fun answer after => start.Reading soft rounds tokens (parts ++ read answer) after)
      fun _ after => start.Strays soft rounds tokens after := by
  obtain ⟨taken, rest, run, opens, filled⟩ := before
  refine (next now rest run.readyNow current).mono ?_ ?_
  · exact fun answer after more => append run opens filled more
  · exact fun _ after strays => strays_append run opens strays

/-- A reading goes on with another that can begin anywhere. -/
theorem Parser.Reading.andThen {soft : SoftNames} {rounds : Nat} {start now : Parser}
    {tokens : List (Token String)} {parts : List Part} {α : Type} {reading : Parse α}
    {read : α → List Part} (before : start.Reading soft rounds tokens parts now)
    (next : reading.Reads soft rounds read) :
    reading.Outcome now
      (fun answer after => start.Reading soft rounds tokens (parts ++ read answer) after)
      fun _ after => start.Strays soft rounds tokens after :=
  before.andThenWhen _ next trivial

end Vibescript
