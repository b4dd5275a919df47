import Vibescript.Parser.Cursor
import Vibescript.Proofs.Cursor.Consumption
import Vibescript.Proofs.NameTable

/-!
# What stands before a cursor

Of the tokens before a cursor some are looked at, directives wait in a queue, and the others are
still text. `Cursor.Pending` puts them together in the order of the source. Looking ahead keeps
them; a step of the cursor takes the next of them, claims a directive or splits a symbol.
-/
namespace Vibescript

namespace Token

/-- A token with its name written out. -/
def written (names : NameTable) (token : Token Name) : Token String :=
  ⟨token.kind.map names.text, token.span⟩

/-- Writing out a name keeps the tag. -/
@[simp] theorem tag_written (names : NameTable) (token : Token Name) :
    (token.written names).tag = token.tag := TokenKind.tag_map _ _

/-- Writing out a name keeps the span. -/
@[simp] theorem span_written (names : NameTable) (token : Token Name) :
    (token.written names).span = token.span := rfl

/-- Writing out a name keeps what is a directive. -/
@[simp] theorem isDirective_written (names : NameTable) (token : Token Name) :
    (token.written names).kind.isDirective = token.kind.isDirective :=
  TokenKind.isDirective_map _ _

/-- A token is written the same in a grown table. -/
theorem written_grows {before after : NameTable} (grows : before.Grows after)
    {token : Token Name} (known : token.kind.Known before) :
    token.written after = token.written before := by
  rw [written, written, known.map_text grows]

/-- Tokens are written the same in a grown table. -/
theorem map_written_grows {before after : NameTable} (grows : before.Grows after)
    {tokens : List (Token Name)} (known : ∀ token ∈ tokens, token.kind.Known before) :
    tokens.map (written after) = tokens.map (written before) :=
  List.map_congr_left fun token member => written_grows grows (known token member)

/-- The token of a kind that was interned. -/
theorem written_intern {names : NameTable} (sound : names.Sound) (kind : TokenKind String)
    (span : Span) :
    written (kind.intern names).2 ⟨(kind.intern names).1, span⟩ = ⟨kind, span⟩ := by
  rw [written, TokenKind.map_text_intern kind sound]

/-- A directive carries no name. -/
theorem known_of_isDirective {token : Token Name} (directive : token.kind.isDirective = true)
    (names : NameTable) : token.kind.Known names := by
  apply TokenKind.known_of_name?_eq_none
  cases token with
  | mk kind span => cases kind <;> first | rfl | exact Bool.noConfusion directive

end Token

/-- All errors of the text, those that were met and those of the pieces still to be read. -/
def Lexer.faults (lexer : Lexer) : List LexicalError :=
  lexer.errors.toList ++ lexer.pieces.filterMap Piece.error?

/-- What the lexer hands out when a cursor pulls a token out of some pieces of the text. -/
structure Lexer.Pulls (before : Lexer) (pieces : List Piece) (found : Token Name)
    (marks : List (Token Name)) (after : Lexer) : Prop where
  /-- The text stays. -/
  source : after.source = before.source
  /-- Names are added. -/
  names : before.names.Grows after.names
  /-- The names stay sound. -/
  sound : after.names.Sound
  /-- Errors are added. -/
  errors : before.errors.toList <+: after.errors.toList
  /-- The errors are those of the pieces. -/
  faults : after.faults = before.errors.toList ++ pieces.filterMap Piece.error?
  /-- What comes before the token is directives. -/
  directives : ∀ token ∈ marks, token.kind.isDirective = true
  /-- The token is the end of the text or the first that is no directive. -/
  found : (found = after.endToken ∧ after.pieces = [] ∧
      Piece.tokens pieces = marks.map (Token.written after.names)) ∨
    (found.tag ≠ .endOfInput ∧ found.kind.isDirective = false ∧ found.kind.Known after.names ∧
      Piece.tokens pieces = marks.map (Token.written after.names) ++
        found.written after.names :: Piece.tokens after.pieces)

namespace Cursor

/-- A piece that is no token is passed over. -/
theorem pullIn_none (lexer : Lexer) {piece : Piece} (rest : List Piece)
    (isKind : piece.kind? = none) :
    pullIn lexer (piece :: rest) = pullIn (lexer.pass piece rest) rest := by
  rw [pullIn, Lexer.read]
  simp only [isKind]

/-- A token is handed out unless it is a directive, which is kept. -/
theorem pullIn_some (lexer : Lexer) {piece : Piece} (rest : List Piece)
    {kind : TokenKind String} (isKind : piece.kind? = some kind) :
    pullIn lexer (piece :: rest) =
      if (kind.intern lexer.names).1.isDirective = true then
        ((pullIn { lexer.pass piece rest with names := (kind.intern lexer.names).2 } rest).1,
          ⟨(kind.intern lexer.names).1, piece.span⟩ ::
            (pullIn { lexer.pass piece rest with names := (kind.intern lexer.names).2 } rest).2.1,
          (pullIn { lexer.pass piece rest with names := (kind.intern lexer.names).2 } rest).2.2)
      else
        (⟨(kind.intern lexer.names).1, piece.span⟩, [],
          { lexer.pass piece rest with names := (kind.intern lexer.names).2 }) := by
  rw [pullIn, Lexer.read]
  simp only [isKind]
  rfl

/-- Pulling hands out the tokens of the text in their order. -/
theorem pulls_pullIn (lexer : Lexer) (pieces : List Piece) (sound : lexer.names.Sound)
    (real : ∀ token ∈ Piece.tokens pieces, token.kind ≠ .endOfInput) :
    lexer.Pulls pieces (pullIn lexer pieces).1 (pullIn lexer pieces).2.1
      (pullIn lexer pieces).2.2 := by
  induction pieces generalizing lexer with
  | nil =>
    exact ⟨rfl, .refl _, sound, List.prefix_rfl, rfl, by simp [pullIn], .inl ⟨rfl, rfl, rfl⟩⟩
  | cons piece rest ih =>
    have errors : lexer.errors.toList <+: (lexer.pass piece rest).errors.toList := by
      simp only [Lexer.pass]
      split <;> simp
    have faults : (lexer.pass piece rest).errors.toList ++ rest.filterMap Piece.error? =
        lexer.errors.toList ++ (piece :: rest).filterMap Piece.error? := by
      simp only [Lexer.pass]
      split <;> simp_all
    cases isKind : piece.kind? with
    | none =>
      rw [pullIn_none lexer rest isKind]
      have skipped := Piece.tokens_skip isKind rest
      rw [skipped] at real
      have pulls := ih (lexer.pass piece rest) sound real
      exact ⟨pulls.source, pulls.names, pulls.sound, errors.trans pulls.errors,
        pulls.faults.trans faults, pulls.directives, skipped ▸ pulls.found⟩
    | some kind =>
      have taken := Piece.tokens_cons isKind rest
      rw [taken] at real
      rw [pullIn_some lexer rest isKind]
      have grows := kind.grows_intern lexer.names
      have soundAfter := kind.sound_intern sound
      have known := kind.known_intern sound
      have written := Token.written_intern sound kind piece.span
      by_cases directive : (kind.intern lexer.names).1.isDirective = true
      · have pulls := ih { lexer.pass piece rest with names := (kind.intern lexer.names).2 }
          soundAfter fun token member => real token (List.mem_cons_of_mem _ member)
        have same := (Token.written_grows pulls.names known).trans written
        rw [if_pos directive]
        refine ⟨pulls.source, grows.trans pulls.names, pulls.sound, errors.trans pulls.errors,
          pulls.faults.trans faults, ?_, ?_⟩
        · intro token member
          rcases List.mem_cons.mp member with rfl | later
          · exact directive
          · exact pulls.directives token later
        · rw [List.map_cons, same, taken]
          rcases pulls.found with ⟨atEnd, empty, whole⟩ | ⟨notEnd, plain, names, whole⟩
          · exact .inl ⟨atEnd, empty, congrArg _ whole⟩
          · exact .inr ⟨notEnd, plain, names, congrArg _ whole⟩
      · rw [if_neg directive]
        refine ⟨rfl, grows, soundAfter, errors, faults, by simp, .inr ⟨?_,
          by simpa using directive, known, taken.trans (congrArg (· :: _) written.symm)⟩⟩
        have notEnd := real _ List.mem_cons_self
        simp only [Token.tag, TokenKind.tag_intern]
        exact fun isEnd => notEnd (TokenKind.eq_endOfInput isEnd)

end Cursor

namespace Lexer

/-- How the tokens that were read and not yet taken are held: a front of the text was read, its
ordinary tokens stand in the buffer, before as many ends of the text as were met, and its
directives stand in the queue. -/
structure Holds (lexer : Lexer) (buffer marks : List (Token Name)) (front : List (Token String))
    (plain : List (Token Name)) (ends : Nat) : Prop where
  /-- The ends of the text come last in the buffer. -/
  buffer : buffer = plain ++ List.replicate ends lexer.endToken
  /-- The other tokens are no ends. -/
  real : ∀ token ∈ plain, token.tag ≠ .endOfInput
  /-- The table holds the names of tokens. -/
  known : ∀ token ∈ plain, token.kind.Known lexer.names
  /-- The end is met only after everything else was read. -/
  spent : ends ≠ 0 → lexer.pieces = []
  /-- The buffer has the ordinary tokens. -/
  ordinary : Token.ordinary front = plain.map (Token.written lexer.names)
  /-- The queue has the directives. -/
  directives : Token.directives front = marks.map (Token.written lexer.names)
  /-- The names are sound. -/
  sound : lexer.names.Sound
  /-- The tokens stand in the text. -/
  line : Token.InLine lexer.source (front ++ Piece.tokens lexer.pieces)

/-- The tokens of the buffer, the queue and the rest of the text, in the order of the text. -/
def Shows (lexer : Lexer) (buffer marks : List (Token Name)) (tokens : List (Token String)) :
    Prop :=
  ∃ front plain ends, lexer.Holds buffer marks front plain ends ∧
    tokens = front ++ Piece.tokens lexer.pieces

namespace Shows

variable {lexer after : Lexer} {buffer marks directives : List (Token Name)}
  {current found : Token Name} {tokens before rest : List (Token String)}

/-- Before anything is read, the tokens are those of the text. -/
theorem start (lexer : Lexer) (sound : lexer.names.Sound)
    (line : Token.InLine lexer.source (Piece.tokens lexer.pieces)) :
    lexer.Shows [] [] (Piece.tokens lexer.pieces) :=
  ⟨[], [], 0, ⟨rfl, by simp, by simp, by simp, rfl, rfl, sound, line⟩, rfl⟩

/-- The names are sound. -/
theorem sound (shows : lexer.Shows buffer marks tokens) : lexer.names.Sound := by
  obtain ⟨_, _, _, holds, _⟩ := shows
  exact holds.sound

/-- The tokens stand in the text. -/
theorem line (shows : lexer.Shows buffer marks tokens) : Token.InLine lexer.source tokens := by
  obtain ⟨_, _, _, holds, rfl⟩ := shows
  exact holds.line

/-- The queue has directives only. -/
theorem isDirective (shows : lexer.Shows buffer marks tokens) :
    ∀ mark ∈ marks, mark.kind.isDirective = true := by
  obtain ⟨front, _, _, holds, _⟩ := shows
  intro mark member
  have inside : mark.written lexer.names ∈ Token.directives front := by
    rw [holds.directives]
    exact List.mem_map_of_mem member
  have directive := (List.mem_filter.mp inside).2
  rwa [Token.isDirective_written] at directive

/-- More names change nothing about the tokens. -/
theorem grow (shows : lexer.Shows buffer marks tokens) {names : NameTable}
    (grows : lexer.names.Grows names) (sound : names.Sound) :
    Shows { lexer with names } buffer marks tokens := by
  have queue := shows.isDirective
  obtain ⟨front, plain, ends, holds, rfl⟩ := shows
  refine ⟨front, plain, ends, ⟨holds.buffer, holds.real, ?_, holds.spent, ?_, ?_, sound,
    holds.line⟩, rfl⟩
  · exact fun token member => (holds.known token member).mono grows
  · rw [holds.ordinary, Token.map_written_grows grows holds.known]
  · rw [holds.directives, Token.map_written_grows grows]
    exact fun mark member => Token.known_of_isDirective (queue mark member) _

/-- Pulling a token moves it from the text to the buffer, and the directives before it to the
queue. -/
theorem pull (shows : lexer.Shows buffer marks tokens)
    (pulls : lexer.Pulls lexer.pieces found directives after) :
    after.Shows (buffer ++ [found]) (marks ++ directives) tokens := by
  have queue : ∀ mark ∈ marks, mark.kind.Known lexer.names := fun mark member =>
    Token.known_of_isDirective (shows.isDirective mark member) _
  obtain ⟨front, plain, ends, holds, rfl⟩ := shows
  have ordinaryFront := holds.ordinary
  have directivesFront := holds.directives
  rw [← Token.map_written_grows pulls.names holds.known] at ordinaryFront
  rw [← Token.map_written_grows pulls.names queue] at directivesFront
  have known : ∀ token ∈ plain, token.kind.Known after.names := fun token member =>
    (holds.known token member).mono pulls.names
  have all : ∀ token ∈ directives.map (Token.written after.names),
      token.kind.isDirective = true := by
    intro token member
    obtain ⟨mark, inside, rfl⟩ := List.mem_map.mp member
    rw [Token.isDirective_written]
    exact pulls.directives mark inside
  have line := holds.line
  have sameEnd : after.endToken = lexer.endToken := by
    rw [endToken, endToken, length, length, pulls.source]
  rcases pulls.found with ⟨rfl, empty, whole⟩ | ⟨notEnd, isPlain, names, whole⟩
  · refine ⟨front ++ directives.map (Token.written after.names), plain, ends + 1,
      ⟨?_, holds.real, known, fun _ => empty, ?_, ?_, pulls.sound, ?_⟩, ?_⟩
    · rw [holds.buffer, sameEnd, List.append_assoc, List.replicate_succ']
    · rw [Token.ordinary_append, Token.ordinary_eq_nil all, List.append_nil, ordinaryFront]
    · rw [Token.directives_append, Token.directives_eq_self all, directivesFront, List.map_append]
    · rw [pulls.source, empty, ← whole]
      simpa [Piece.tokens] using line
    · rw [empty, ← whole]
      simp [Piece.tokens]
  · have noEnds : ends = 0 := by
      by_cases isZero : ends = 0
      · exact isZero
      · rw [holds.spent isZero] at whole
        simp [Piece.tokens] at whole
    subst noEnds
    have plainWritten : (found.written after.names).kind.isDirective = false := by
      rw [Token.isDirective_written, isPlain]
    refine ⟨front ++ directives.map (Token.written after.names) ++ [found.written after.names],
      plain ++ [found], 0, ⟨?_, ?_, ?_, by simp, ?_, ?_, pulls.sound, ?_⟩, ?_⟩
    · rw [holds.buffer]
      simp
    · intro token member
      rcases List.mem_append.mp member with early | late
      · exact holds.real token early
      · rw [List.mem_singleton.mp late]
        exact notEnd
    · intro token member
      rcases List.mem_append.mp member with early | late
      · exact known token early
      · rw [List.mem_singleton.mp late]
        exact names
    · rw [Token.ordinary_append, Token.ordinary_append, Token.ordinary_eq_nil all, List.append_nil,
        ordinaryFront, Token.ordinary_cons plainWritten, List.map_append]
      rfl
    · rw [Token.directives_append, Token.directives_append, Token.directives_eq_self all,
        directivesFront, Token.directives_cons plainWritten, List.map_append]
      simp [Token.directives]
    · rw [pulls.source]
      rw [whole] at line
      simpa using line
    · rw [whole]
      simp

/-- The front token of the buffer is the end, and then only directives are left, or it is the
first ordinary token that is left. -/
theorem first (shows : lexer.Shows (current :: buffer) marks tokens) :
    (current = lexer.endToken ∧ lexer.pieces = [] ∧ Token.ordinary tokens = []) ∨
    (current.tag ≠ .endOfInput ∧ current.kind.Known lexer.names ∧
      ∃ before rest, tokens = before ++ current.written lexer.names :: rest ∧
        (∀ mark ∈ before, mark.kind.isDirective = true) ∧ current.kind.isDirective = false) := by
  obtain ⟨front, plain, ends, holds, rfl⟩ := shows
  have split := holds.buffer
  cases plain with
  | nil =>
    left
    have some : ends ≠ 0 := by
      rintro rfl
      simp at split
    have empty := holds.spent some
    obtain ⟨more, rfl⟩ := Nat.exists_eq_succ_of_ne_zero some
    rw [List.nil_append, List.replicate_succ] at split
    refine ⟨(List.cons.inj split).1, empty, ?_⟩
    rw [empty, Token.ordinary_append, holds.ordinary]
    rfl
  | cons token plain =>
    right
    obtain ⟨rfl, _⟩ := List.cons.inj split
    obtain ⟨before, rest, rfl, directive, isPlain, _⟩ := Token.ordinary_eq_cons holds.ordinary
    refine ⟨holds.real _ List.mem_cons_self, holds.known _ List.mem_cons_self, before,
      rest ++ Piece.tokens lexer.pieces, by simp, directive, ?_⟩
    rwa [Token.isDirective_written] at isPlain

/-- How the tokens are held when the front token of the buffer is no end. -/
theorem uncons (shows : lexer.Shows (current :: buffer) marks
      (before ++ current.written lexer.names :: rest))
    (directive : ∀ mark ∈ before, mark.kind.isDirective = true)
    (notEnd : current.tag ≠ .endOfInput) :
    ∃ front plain ends,
      lexer.Holds (current :: buffer) marks (before ++ current.written lexer.names :: front)
        (current :: plain) ends ∧
      (current.written lexer.names).kind.isDirective = false ∧
      buffer = plain ++ List.replicate ends lexer.endToken ∧
      rest = front ++ Piece.tokens lexer.pieces := by
  obtain ⟨front, plain, ends, holds, same⟩ := shows
  have split := holds.buffer
  cases plain with
  | nil =>
    -- An end at the front would mean that the token is one.
    exfalso
    have member : current ∈ List.replicate ends lexer.endToken := by
      rw [← List.nil_append (List.replicate _ _), ← split]
      exact List.mem_cons_self
    rw [List.eq_of_mem_replicate member] at notEnd
    exact notEnd rfl
  | cons token plain =>
    obtain ⟨rfl, others⟩ := List.cons.inj split
    obtain ⟨before', front', rfl, directive', isPlain, _⟩ :=
      Token.ordinary_eq_cons holds.ordinary
    -- Both ways to write the tokens meet at the first ordinary one.
    rw [List.append_assoc, List.cons_append] at same
    have first := congrArg (List.takeWhile fun token => token.kind.isDirective) same
    rw [List.takeWhile_append_of_pos directive, List.takeWhile_append_of_pos directive'] at first
    simp only [List.takeWhile_cons, isPlain, Bool.false_eq_true, if_false,
      List.append_nil] at first
    subst first
    exact ⟨front', plain, ends, holds, isPlain, others,
      (List.cons.inj (List.append_cancel_left same)).2⟩

/-- Taking the front token of the buffer leaves what comes after it; directives before it are
dropped from the queue. -/
theorem tail (shows : lexer.Shows (current :: buffer) marks
      (before ++ current.written lexer.names :: rest))
    (directive : ∀ mark ∈ before, mark.kind.isDirective = true)
    (notEnd : current.tag ≠ .endOfInput) :
    lexer.Shows buffer
      (marks.dropWhile fun mark => decide (mark.span.start < current.span.start)) rest := by
  have line := shows.line
  obtain ⟨front, plain, ends, holds, isPlain, others, rfl⟩ := shows.uncons directive notEnd
  have more := holds.ordinary
  rw [Token.ordinary_append, Token.ordinary_eq_nil directive, Token.ordinary_cons isPlain,
    List.nil_append, List.map_cons, List.cons.injEq] at more
  have marked := holds.directives
  rw [Token.directives_append, Token.directives_eq_self directive,
    Token.directives_cons isPlain] at marked
  obtain ⟨dropped, kept, rfl, early, late⟩ := List.map_eq_append_iff.mp marked.symm
  obtain ⟨_, after, apart⟩ := Token.InLine.append_iff.mp line
  obtain ⟨next, _, remaining⟩ := Token.InLine.cons_iff.mp after
  have isEarly : ∀ mark ∈ dropped, decide (mark.span.start < current.span.start) = true := by
    intro mark member
    have inside : mark.written lexer.names ∈ before := early ▸ List.mem_map_of_mem member
    exact decide_eq_true (apart _ inside _ List.mem_cons_self).2
  have isLate : ∀ mark ∈ kept, ¬decide (mark.span.start < current.span.start) = true := by
    intro mark member
    have inside : mark.written lexer.names ∈ Token.directives front :=
      late ▸ List.mem_map_of_mem member
    have starts := (next _ (List.mem_append_left _ (List.mem_filter.mp inside).1)).2
    simp only [Token.span_written, decide_eq_true_eq] at starts ⊢
    omega
  have remains : (dropped ++ kept).dropWhile
      (fun mark => decide (mark.span.start < current.span.start)) = kept := by
    rw [List.dropWhile_append_of_pos isEarly]
    cases kept with
    | nil => rfl
    | cons mark kept => exact List.dropWhile_cons_of_neg (isLate mark List.mem_cons_self)
  rw [remains]
  exact ⟨front, plain, ends,
    ⟨others, fun token member => holds.real token (List.mem_cons_of_mem _ member),
      fun token member => holds.known token (List.mem_cons_of_mem _ member), holds.spent, more.2,
      late.symm, holds.sound, remaining⟩, rfl⟩

/-- A directive before the front token of the buffer is the next of the tokens. -/
theorem claim {mark : Token Name} (shows : lexer.Shows (current :: buffer) (mark :: marks) tokens)
    (early : mark.span.start < current.span.start) :
    ∃ rest, tokens = mark.written lexer.names :: rest ∧
      lexer.Shows (current :: buffer) marks rest := by
  have line := shows.line
  have all := shows.first
  obtain ⟨front, plain, ends, holds, rfl⟩ := shows
  obtain ⟨before, front', rfl, isPlain, directive, more⟩ :=
    List.filter_eq_cons_iff.mp holds.directives
  -- An ordinary token before the directive would be the front token of the buffer.
  have none : before = [] := by
    cases before with
    | nil => rfl
    | cons token before =>
      exfalso
      have plainToken : token.kind.isDirective = false := by
        simpa using isPlain token List.mem_cons_self
      rcases all with ⟨_, _, empty⟩ | ⟨_, _, others, rest, same, marks, _⟩
      · simp [Token.ordinary, plainToken] at empty
      · have first : token = current.written lexer.names := by
          cases others with
          | nil => exact (List.cons.inj same).1
          | cons other others =>
            have isMark := marks other List.mem_cons_self
            rw [← (List.cons.inj same).1, plainToken] at isMark
            contradiction
        have apart := (Token.InLine.cons_iff.mp line).1 (mark.written lexer.names) (by simp)
        have starts := apart.2
        rw [first] at starts
        simp only [Token.span_written] at starts
        omega
  subst none
  obtain ⟨_, _, remaining⟩ := Token.InLine.cons_iff.mp line
  refine ⟨front' ++ Piece.tokens lexer.pieces, rfl, front', plain, ends,
    ⟨holds.buffer, holds.real, holds.known, holds.spent, ?_, more, holds.sound, remaining⟩, rfl⟩
  have ordinary := holds.ordinary
  rwa [List.nil_append, Token.ordinary, List.filter_cons_of_neg (by simpa using directive)]
    at ordinary

/-- The tokens of the buffer are the first ordinary tokens. -/
theorem getElem? (shows : lexer.Shows buffer marks tokens) {place : Nat} {token : Token Name}
    (found : buffer[place]? = some token) :
    (token = lexer.endToken ∧ (Token.ordinary tokens)[place]? = none) ∨
    (token.tag ≠ .endOfInput ∧ token.kind.Known lexer.names ∧
      (Token.ordinary tokens)[place]? = some (token.written lexer.names)) := by
  obtain ⟨front, plain, ends, holds, rfl⟩ := shows
  rw [holds.buffer] at found
  rw [Token.ordinary_append, holds.ordinary]
  by_cases inside : place < plain.length
  · right
    rw [List.getElem?_append_left inside] at found
    have member := List.mem_of_getElem? found
    refine ⟨holds.real token member, holds.known token member, ?_⟩
    rw [List.getElem?_append_left (by simpa using inside), List.getElem?_map, found]
    rfl
  · left
    rw [List.getElem?_append_right (by omega)] at found
    obtain ⟨short, same⟩ := List.getElem?_eq_some_iff.mp found
    rw [List.length_replicate] at short
    rw [holds.spent (by omega)]
    refine ⟨?_, ?_⟩
    · rw [← same, List.getElem_replicate]
    · rw [List.getElem?_eq_none]
      simp [Piece.tokens, Token.ordinary]
      omega

/-- Two tokens can stand in the place of the front token of the buffer. -/
theorem exchange
    (shows : lexer.Shows (current :: buffer) marks
      (before ++ current.written lexer.names :: rest))
    (left right : Token Name)
    (directive : ∀ mark ∈ before, mark.kind.isDirective = true)
    (notEnd : current.tag ≠ .endOfInput)
    (real : ∀ token ∈ [left, right], token.tag ≠ .endOfInput)
    (known : ∀ token ∈ [left, right], token.kind.Known lexer.names)
    (ordinary : ∀ token ∈ [left, right], token.kind.isDirective = false)
    (line : Token.InLine lexer.source
      (before ++ left.written lexer.names :: right.written lexer.names :: rest)) :
    lexer.Shows (left :: right :: buffer) marks
      (before ++ left.written lexer.names :: right.written lexer.names :: rest) := by
  have directiveLeft : (left.written lexer.names).kind.isDirective = false := by
    rw [Token.isDirective_written]
    exact ordinary left (by simp)
  have directiveRight : (right.written lexer.names).kind.isDirective = false := by
    rw [Token.isDirective_written]
    exact ordinary right (by simp)
  obtain ⟨front, plain, ends, holds, isPlain, others, rfl⟩ := shows.uncons directive notEnd
  have more := holds.ordinary
  rw [Token.ordinary_append, Token.ordinary_eq_nil directive, Token.ordinary_cons isPlain,
    List.nil_append, List.map_cons, List.cons.injEq] at more
  have marked := holds.directives
  rw [Token.directives_append, Token.directives_cons isPlain] at marked
  refine ⟨before ++ left.written lexer.names :: right.written lexer.names :: front,
    left :: right :: plain, ends, ⟨?_, ?_, ?_, holds.spent, ?_, ?_, holds.sound, ?_⟩, by simp⟩
  · rw [others]
    rfl
  · intro token member
    rcases List.mem_append.mp (show token ∈ [left, right] ++ plain from member) with new | old
    · exact real token new
    · exact holds.real token (List.mem_cons_of_mem _ old)
  · intro token member
    rcases List.mem_append.mp (show token ∈ [left, right] ++ plain from member) with new | old
    · exact known token new
    · exact holds.known token (List.mem_cons_of_mem _ old)
  · rw [Token.ordinary_append, Token.ordinary_eq_nil directive, Token.ordinary_cons directiveLeft,
      Token.ordinary_cons directiveRight, more.2]
    rfl
  · rw [Token.directives_append, Token.directives_cons directiveLeft,
      Token.directives_cons directiveRight, marked]
  · simpa using line

end Shows

end Lexer

end Vibescript
