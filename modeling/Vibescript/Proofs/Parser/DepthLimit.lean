import Mathlib.Data.Nat.Find
import Vibescript.Proofs.Parser.Fidelity
import Vibescript.Proofs.Parser.Parting

/-!
# The nesting limit

A parse that goes on after errors is halted by the nesting limit only. A limit that was met is
reported once, after all other errors of the parser, and the rest of the text is skipped. A limit
that was not met could as well have been higher, and two levels for each byte of the text are
enough. So there is a least limit that is not met, and from it on the limit makes no difference.
-/
namespace Vibescript

open Cursor

/-- The options that recover from errors at a nesting limit. -/
abbrev ParseOptions.recovering (limit : Nat) : ParseOptions := ⟨limit, .recover⟩

/-- A grammatical problem is not the nesting limit. -/
theorem ErrorCode.ne_nestingTooDeep {code : ErrorCode} (family : code.category = .grammatical) :
    code ≠ .nestingTooDeep := by
  rintro rfl
  contradiction

namespace Parser

/-- A parser that recovers from errors records an error, and halts at the nesting limit. -/
theorem reported_recover {parser : Parser} (goesOn : parser.isHalted = false)
    (error : ParseError) :
    parser.reported .recover error = { parser with
      errors := parser.errors.push error
      isHalted := error.code == .nestingTooDeep } := by
  rw [reported, if_neg (by simp [goesOn])]
  rfl

/-- A parser that is halted drops errors. -/
theorem reported_halted {parser : Parser} (halted : parser.isHalted = true)
    (recovery : RecoveryMode) (error : ParseError) : parser.reported recovery error = parser := by
  rw [reported, if_pos halted]

/-- The nesting limit was not met, or it was reported as the last error, at the end of the
text. -/
def IsLimited (parser : Parser) : Prop :=
  (parser.isHalted = false ∧ ∀ error ∈ parser.errors.toList, error.code ≠ .nestingTooDeep) ∨
  (parser.isHalted = true ∧ parser.cursor.isAtEnd = true ∧ ∃ earlier error,
    parser.errors.toList = earlier ++ [error] ∧ error.code = .nestingTooDeep ∧
      ∀ other ∈ earlier, other.code ≠ .nestingTooDeep)

/-- A parse at a nesting limit that recovers from errors stands at a cursor of a text. -/
def Limited (rounds : Nat) (parser : Parser) : Prop :=
  parser.cursor.Reaches rounds 0 ∧ parser.IsLimited

/-- A parser that halts stays at the end of the text. -/
theorem maintains_limited (rounds : Nat) :
    Maintains .recover (Limited rounds) fun error parser =>
      Limited rounds parser ∧ (error.code = .nestingTooDeep → parser.cursor.isAtEnd = true) := by
  refine ⟨?_, ?_, ?_⟩
  · intro before after quiet ⟨stands, limited⟩
    refine ⟨stands.onward quiet.onward, ?_⟩
    rw [IsLimited, quiet.errors, quiet.halted]
    rcases limited with goesOn | ⟨halted, atEnd, errors⟩
    · exact .inl goesOn
    · exact .inr ⟨halted, stands.atEnd quiet.onward atEnd, errors⟩
  · exact fun error parser limited family _ =>
      ⟨limited, fun deep => absurd deep (ErrorCode.ne_nestingTooDeep family)⟩
  · intro error parser ⟨⟨stands, limited⟩, ends⟩
    refine ⟨stands.onward (onward_reported .recover error parser), ?_⟩
    rcases limited with ⟨goesOn, shallow⟩ | ⟨halted, atEnd, errors⟩
    · rw [reported_recover goesOn]
      by_cases deep : error.code = .nestingTooDeep
      · refine .inr ⟨beq_iff_eq.mpr deep, ends deep, parser.errors.toList, error, ?_, deep, shallow⟩
        exact Array.toList_push
      · refine .inl ⟨beq_eq_false_iff_ne.mpr deep, fun other member => ?_⟩
        rw [Array.toList_push] at member
        rcases List.mem_append.mp member with early | last
        · exact shallow other early
        · rwa [List.mem_singleton.mp last]
    · rw [reported_halted halted]
      exact .inr ⟨halted, atEnd, errors⟩

variable {rounds : Nat} {soft : SoftNames}

/-- A parser that has met no error is not limited. -/
theorem Limited.start {parser : Parser} (stands : parser.cursor.Reaches rounds 0)
    (errors : parser.errors = #[]) (goesOn : parser.isHalted = false) : Limited rounds parser :=
  ⟨stands, .inl ⟨goesOn, by simp [errors]⟩⟩

/-- At every level, a parse that recovers from errors is halted by the nesting limit only. -/
theorem settled_limited (limit : Nat) (soft : SoftNames) (rounds levels : Nat) :
    (Grammar.level (.recovering limit) soft rounds levels).Settled rounds
      (Grammar.anywhere rounds levels) (Limited rounds) fun error parser =>
        Limited rounds parser ∧ (error.code = .nestingTooDeep → parser.cursor.isAtEnd = true) :=
  (maintains_limited rounds).settled (.recovering limit) soft (Grammar.ladder_anywhere rounds)
    (fun _ parser _ limited =>
      ⟨(maintains_limited rounds).quiet _ _ (Build.isQuiet_skipToEnd parser) limited,
        fun _ => isAtEnd_skipToEnd parser.cursor⟩) levels

/-- A parse that recovers from errors is halted by the nesting limit only. -/
theorem Limited.program {parser : Parser} (limited : Limited rounds parser) (limit : Nat) :
    Limited rounds ((Grammar.outermost (.recovering limit) soft rounds).program parser).2 :=
  ((maintains_limited rounds).program (.recovering limit) soft
    (settled_limited limit soft rounds limit) (fun _ _ stands => stands) limited.1 limited).1

/-- A parse of a text begins at its start. -/
theorem Begins.reaches {source : String} {parser : Parser} (begins : Begins source soft parser) :
    parser.cursor.Reaches (Parser.rounds source) 0 := by
  refine ⟨⟨sourceTokens source, begins.ready.pending, ?_, begins.ready.rounds⟩, Nat.zero_le _,
    trivial⟩
  rw [begins.text]
  exact .of_source source.toList

/-- A parse that recovers from errors is halted by the nesting limit only. -/
theorem isLimited_run (limit : Nat) (source : String) :
    (Parser.run (.recovering limit) source).2.IsLimited := by
  have begins := begins_start source
  rw [run_eq]
  generalize Parser.start source = start at begins
  exact ((Limited.start begins.reaches begins.errors begins.halted).program limit).2

/-! Two levels for each byte are enough. -/

/-- The levels that a reading needs at most: two for each byte from where it begins, and one less
for an expression, which a statement may begin with. -/
def levelsNeeded (length : Nat) (request : Request) (start : Nat) : Nat :=
  match request with
  | .statement => 2 * (length + 1 - start)
  | _ => 2 * (length + 1 - start) - 1

/-- A level has enough levels below it. -/
def Suffices (rounds length : Nat) (levels : Nat) (request : Request) (cursor : Cursor) : Prop :=
  cursor.Reaches rounds 0 ∧ levelsNeeded length request cursor.current.span.start ≤ levels

/-- What is read deeper has enough levels below it as well. -/
theorem ladder_suffices (rounds length : Nat) : Grammar.Ladder rounds (Suffices rounds length) := by
  refine ⟨fun _ _ _ entered => entered.1, ?_, ?_⟩
  · intro levels request other cursor later ⟨_, enough⟩ further
    have le := further.floor
    refine ⟨further.mono (Nat.zero_le _) id, ?_⟩
    unfold levelsNeeded at enough ⊢
    split <;> split at enough <;> omega
  · intro levels cursor later ⟨_, enough⟩ further
    have le := further.floor
    refine ⟨further.mono (Nat.zero_le _) id, ?_⟩
    simp only [levelsNeeded] at enough ⊢
    omega

/-- A parser in a text of a length goes on. -/
def GoesOn (rounds length : Nat) (parser : Parser) : Prop :=
  parser.cursor.Reaches rounds 0 ∧ parser.cursor.lexer.length = length ∧ parser.isHalted = false

/-- A parser goes on while the nesting limit is not met. -/
theorem maintains_goesOn (rounds length : Nat) :
    Maintains .recover (GoesOn rounds length) fun error parser =>
      GoesOn rounds length parser ∧ error.code ≠ .nestingTooDeep := by
  refine ⟨?_, fun error parser goesOn family _ =>
    ⟨goesOn, ErrorCode.ne_nestingTooDeep family⟩, ?_⟩
  · intro before after quiet ⟨stands, length, goesOn⟩
    obtain ⟨tokens, pending, _⟩ := stands.pending
    obtain ⟨taken, rest, moves⟩ := quiet.onward tokens pending
    refine ⟨stands.onward quiet.onward, ?_, quiet.halted.trans goesOn⟩
    rw [← length]
    exact congrArg Text.byteLength moves.source
  · intro error parser ⟨⟨stands, length, goesOn⟩, shallow⟩
    rw [reported_recover goesOn]
    exact ⟨stands, length, beq_eq_false_iff_ne.mpr shallow⟩

/-- With enough levels, the nesting limit is not met. -/
theorem GoesOn.program {length limit : Nat} {parser : Parser} (goesOn : GoesOn rounds length parser)
    (enough : 2 * length + 2 ≤ limit) :
    GoesOn rounds length ((Grammar.outermost (.recovering limit) soft rounds).program parser).2 := by
  have maintains := maintains_goesOn rounds length
  have settled := maintains.settled (.recovering limit) soft
    (ladder_suffices rounds length) (fun request parser ⟨stands, needed⟩ ⟨_, same, _⟩ => ?_) limit
  · refine (maintains.program (.recovering limit) soft settled
      (fun request cursor stands => ⟨stands, ?_⟩) goesOn.1 goesOn).1
    show levelsNeeded length request cursor.current.span.start ≤ limit
    unfold levelsNeeded
    split <;> omega
  · -- A cursor of the text stands before its end, so some level is needed.
    obtain ⟨tokens, pending, _⟩ := stands.pending
    have inside := pending.start_le_length
    unfold levelsNeeded at needed
    split at needed <;> omega

/-- With two levels for each byte and two more, the nesting limit is not met. -/
theorem isHalted_run {limit : Nat} {source : String}
    (enough : 2 * Text.byteLength source.toList + 2 ≤ limit) :
    (Parser.run (.recovering limit) source).2.isHalted = false := by
  have begins := begins_start source
  rw [run_eq]
  generalize Parser.start source = start at begins
  have goesOn : GoesOn (rounds source) (Text.byteLength source.toList) start.2 :=
    ⟨begins.reaches, congrArg Text.byteLength begins.text, begins.halted⟩
  exact (goesOn.program enough).2.2

/-! A limit that was not met could as well have been higher. -/

/-- Two parses go together until the first one meets its nesting limit. -/
def atLimit : Parting Unit where
  same parser := parser.isHalted = false
  fails error parser := parser.isHalted = false ∧ error.code ≠ .nestingTooDeep
  left _ parser := parser.isHalted = true
  leftFails _ error parser := parser.isHalted = true ∨ error.code = .nestingTooDeep
  right _ _ := True
  rightFails _ _ _ := True

/-- Parses that recover from errors part at the nesting limit only. -/
theorem lawful_atLimit : atLimit.Lawful .recover .recover where
  quiet _ _ quiet same := quiet.halted.trans same
  unexpected _ _ same family _ := ⟨same, ErrorCode.ne_nestingTooDeep family⟩
  reported error parser fails := by
    refine .inl ⟨rfl, ?_⟩
    show (parser.reported .recover error).isHalted = false
    rw [reported_recover fails.1]
    exact beq_eq_false_iff_ne.mpr fails.2
  goesOn parser same := by
    show (parser.isHalted || false) = false
    rw [same]
    rfl
  halts parser same halts := by
    have goesOn : (parser.isHalted || false) = false := by
      rw [same]
      rfl
    exact absurd (goesOn.symm.trans halts) Bool.false_ne_true
  left _ := by
    refine ⟨fun _ _ quiet halted => quiet.halted.trans halted, fun _ _ halted _ _ => .inl halted,
      fun error parser fails => ?_⟩
    cases halted : parser.isHalted with
    | true =>
      show (parser.reported .recover error).isHalted = true
      rw [reported_halted halted, halted]
    | false =>
      have deep : error.code = .nestingTooDeep :=
        fails.resolve_left (by rw [halted]; exact Bool.false_ne_true)
      show (parser.reported .recover error).isHalted = true
      rw [reported_recover halted]
      exact beq_iff_eq.mpr deep
  right _ := ⟨fun _ _ _ _ => trivial, fun _ _ _ _ _ => trivial, fun _ _ _ => trivial⟩

/-- A parse that does not meet its nesting limit goes as with any higher one. -/
theorem program_eq_of_le {limit higher : Nat} {parser : Parser}
    (stands : parser.cursor.Reaches rounds 0) (start : parser.isHalted = false)
    (goesOn : ((Grammar.outermost (.recovering limit) soft rounds).program parser).2.isHalted = false)
    (le : limit ≤ higher) :
    (Grammar.outermost (.recovering limit) soft rounds).program parser =
      (Grammar.outermost (.recovering higher) soft rounds).program parser := by
  have lawful := lawful_atLimit
  have rightSettled : ∀ way levels, (Grammar.level (.recovering higher) soft rounds levels).Settled
      rounds (Grammar.anywhere rounds levels) (atLimit.right way) (atLimit.rightFails way) :=
    fun way levels => (lawful.right way).settled (.recovering higher) soft
      (Grammar.ladder_anywhere rounds) (fun _ _ _ _ => trivial) levels
  have parts := lawful.program (.recovering limit) (.recovering higher) soft
    (higher - limit) (fun _ _ halted => .inl halted)
    rightSettled ?_ (by show higher = limit + (higher - limit); omega) stands start
  · rcases parts with ⟨equal, _⟩ | ⟨_, halted, _⟩
    · exact equal
    · exact absurd (goesOn.symm.trans halted) Bool.false_ne_true
  · intro request parser stands _
    refine .inr ⟨(), ⟨(Build.isQuiet_skipToEnd parser).onward, .inr rfl⟩, ?_⟩
    exact rightSettled () (higher - limit) request parser stands trivial

/-- A parse that does not meet its nesting limit goes as with any higher one. -/
theorem run_eq_of_le {limit higher : Nat} {source : String}
    (goesOn : (Parser.run (.recovering limit) source).2.isHalted = false)
    (le : limit ≤ higher) :
    Parser.run (.recovering limit) source = Parser.run (.recovering higher) source := by
  have begins := begins_start source
  rw [run_eq] at goesOn
  rw [run_eq, run_eq]
  generalize Parser.start source = start at begins goesOn
  exact program_eq_of_le begins.reaches begins.halted goesOn le

/-- The errors of a parse that recovers from errors are those of the lexer and those of the parser,
in another order. -/
theorem errors_finish_perm (parser : Parser) (limit : Nat) (root : NodeId) :
    (parser.finish (.recovering limit) root).errors.Perm
      (parser.cursor.lexer.errors.toList.map ParseError.ofLexical ++ parser.errors.toList) :=
  List.mergeSort_perm _ _

/-- The nesting limit is no error of the lexer. -/
theorem code_ofLexical_ne (error : LexicalError) :
    (ParseError.ofLexical error).code ≠ .nestingTooDeep := by
  show error.fault.code ≠ .nestingTooDeep
  cases error.fault <;> exact ErrorCode.noConfusion

/-- A limited parse reports the nesting limit once, and any other parse never. -/
theorem IsLimited.countP {parser : Parser} (limited : parser.IsLimited) (limit : Nat)
    (root : NodeId) :
    (parser.finish (.recovering limit) root).errors.countP (·.code == .nestingTooDeep) =
      if parser.isHalted = true then 1 else 0 := by
  rw [(errors_finish_perm parser limit root).countP_eq, List.countP_append]
  have lexical : (parser.cursor.lexer.errors.toList.map ParseError.ofLexical).countP
      (·.code == .nestingTooDeep) = 0 := by
    rw [List.countP_eq_zero]
    intro error member
    obtain ⟨fault, _, rfl⟩ := List.mem_map.mp member
    simpa using code_ofLexical_ne fault
  have none {errors : List ParseError} (shallow : ∀ error ∈ errors, error.code ≠ .nestingTooDeep) :
      errors.countP (·.code == .nestingTooDeep) = 0 := by
    rw [List.countP_eq_zero]
    intro error member
    simpa using shallow error member
  rw [lexical, Nat.zero_add]
  rcases limited with ⟨goesOn, shallow⟩ | ⟨halted, _, earlier, error, errors, deep, shallow⟩
  · rw [none shallow, goesOn]
    rfl
  · rw [errors, List.countP_append, none shallow, halted, List.countP_singleton, deep]
    rfl

end Parser

/-- The nesting limit is a sharp threshold. Below it the limit is reported, once, as the last error
of the parser, and the rest of the text is skipped; from it on the limit makes no difference. -/
theorem exists_limitThreshold (source : String) :
    ∃ threshold ≤ 2 * Text.byteLength source.toList + 2,
      (∀ limit, (∃ error ∈ (parseWith (.recovering limit) source).errors,
        error.code = .nestingTooDeep) ↔ limit < threshold) ∧
      (∀ limit < threshold,
        (parseWith (.recovering limit) source).errors.countP (·.code == .nestingTooDeep) = 1 ∧
        (∃ earlier error, (Parser.run (.recovering limit) source).2.errors.toList =
          earlier ++ [error] ∧ error.code = .nestingTooDeep) ∧
        (Parser.run (.recovering limit) source).2.cursor.isAtEnd = true) ∧
      ∀ limit higher, threshold ≤ limit → threshold ≤ higher →
        parseWith (.recovering limit) source = parseWith (.recovering higher) source := by
  have goesOn : ∃ limit, (Parser.run (.recovering limit) source).2.isHalted = false :=
    ⟨_, Parser.isHalted_run (Nat.le_refl _)⟩
  have least := Nat.find_spec goesOn
  have halted {limit : Nat} (below : limit < Nat.find goesOn) :
      (Parser.run (.recovering limit) source).2.isHalted = true :=
    Bool.not_eq_false _ ▸ Nat.find_min goesOn below
  have same {limit : Nat} (le : Nat.find goesOn ≤ limit) :
      Parser.run (.recovering (Nat.find goesOn)) source =
        Parser.run (.recovering limit) source :=
    Parser.run_eq_of_le least le
  have once (limit : Nat) :
      (parseWith (.recovering limit) source).errors.countP (·.code == .nestingTooDeep) =
        if (Parser.run (.recovering limit) source).2.isHalted = true then 1 else 0 := by
    rw [parseWith_eq]
    exact (Parser.isLimited_run limit source).countP limit _
  refine ⟨Nat.find goesOn, Nat.find_min' goesOn (Parser.isHalted_run (Nat.le_refl _)), ?_, ?_, ?_⟩
  · intro limit
    have reported : (∃ error ∈ (parseWith (.recovering limit) source).errors,
        error.code = .nestingTooDeep) ↔
        0 < (parseWith (.recovering limit) source).errors.countP (·.code == .nestingTooDeep) := by
      simp [List.countP_pos_iff]
    rw [reported, once limit]
    by_cases below : limit < Nat.find goesOn
    · simp [halted below, below]
    · have le := Nat.not_lt.mp below
      rw [← same le, least]
      simp [below]
  · intro limit below
    refine ⟨by rw [once limit, halted below]; rfl, ?_⟩
    rcases Parser.isLimited_run limit source with ⟨unmet, _⟩ |
      ⟨_, atEnd, earlier, error, errors, deep, _⟩
    · exact absurd ((halted below).symm.trans unmet) Bool.noConfusion
    · exact ⟨⟨earlier, error, errors, deep⟩, atEnd⟩
  · intro limit higher le leHigher
    rw [parseWith_eq, parseWith_eq, ← same le, ← same leHigher]
    rfl

end Vibescript
