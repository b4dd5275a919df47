import Vibescript.Proofs.Parser.JustifiedErrors
import Vibescript.Proofs.Parser.Rounds
import Vibescript.Proofs.Tree.Height

/-!
# What readings build

`Parse.Builds` says what is known of the arena before a reading, and what of its answer afterwards: a
node with short paths down from it, or children that all are such nodes. Whatever is known lasts while
the arena grows, so there is one rule for each way in which readings are put together. A construct that
fails gives way to an error node, and what it built is taken back.
-/
namespace Vibescript

open Build Parse

namespace Arena

/-- What holds of an arena and goes on holding while it grows. -/
structure Fact where
  /-- The fact. -/
  holds : Arena → Prop
  /-- It goes on holding. -/
  lasts : ∀ {before after : Arena}, before.Grows after → holds before → holds after

namespace Fact

/-- Nothing in particular. -/
def none : Fact := ⟨fun _ => True, fun _ => id⟩

/-- Two facts. -/
def and (first second : Fact) : Fact :=
  ⟨fun arena => first.holds arena ∧ second.holds arena, fun grows both =>
    ⟨first.lasts grows both.1, second.lasts grows both.2⟩⟩

/-- The paths down from a node are short. -/
def node (height : Nat) (id : NodeId) : Fact :=
  ⟨fun arena => arena.Shallow height id, fun grows shallow => shallow.mono grows⟩

/-- The paths down from some nodes are short. -/
def nodes (height : Nat) (ids : List NodeId) : Fact :=
  ⟨fun arena => ∀ id ∈ ids, arena.Shallow height id, fun grows shallow id member =>
    (shallow id member).mono grows⟩

/-- The paths down from the children in a field are short. -/
def child (height : Nat) (child : Child) : Fact :=
  ⟨fun arena => arena.Keeps height child, fun grows keeps => keeps.mono grows⟩

variable {arena : Arena} {height : Nat}

@[simp] theorem holds_and {first second : Fact} :
    (first.and second).holds arena ↔ first.holds arena ∧ second.holds arena := Iff.rfl

@[simp] theorem holds_node {id : NodeId} :
    (node height id).holds arena ↔ arena.Shallow height id := Iff.rfl

@[simp] theorem holds_nodes {ids : List NodeId} :
    (nodes height ids).holds arena ↔ ∀ id ∈ ids, arena.Shallow height id := Iff.rfl

@[simp] theorem holds_child {child : Child} :
    (Fact.child height child).holds arena ↔ arena.Keeps height child := Iff.rfl

end Fact

/-- The paths down from the children in some fields are short. -/
def KeepsAll (arena : Arena) (height : Nat) (fields : List (String × Child)) : Prop :=
  ∀ field ∈ fields, arena.Keeps height field.2

section

variable {arena : Arena} {height : Nat} {field : String}

@[simp] theorem keepsAll_nil : arena.KeepsAll height [] := List.forall_mem_nil _

@[simp] theorem keepsAll_append {left right : List (String × Child)} :
    arena.KeepsAll height (left ++ right) ↔
      arena.KeepsAll height left ∧ arena.KeepsAll height right := List.forall_mem_append

@[simp] theorem keepsAll_one {id : NodeId} :
    arena.KeepsAll height (NodeKind.one field id) ↔ arena.Shallow height id := by
  simp [KeepsAll, NodeKind.one]

@[simp] theorem keepsAll_many {range : NodeRange} :
    arena.KeepsAll height (NodeKind.many field range) ↔ arena.Keeps height (.list range) := by
  simp [KeepsAll, NodeKind.many]

@[simp] theorem keepsAll_optional {id : Option NodeId} :
    arena.KeepsAll height (NodeKind.optional field id) ↔
      ∀ child ∈ id.toList, arena.Shallow height child := by
  simp [KeepsAll, NodeKind.optional]

end

/-- The children of a node to be added are within bounds. -/
structure Fits (arena : Arena) (height : Nat) (kind : NodeKind) : Prop where
  /-- The first operand is as shallow as the node. -/
  first : ∀ child ∈ kind.first?, arena.Shallow (height + 1) child
  /-- The other children are shallower. -/
  others : ∀ field ∈ kind.fields, (∀ child ∈ kind.first?, field.2 ≠ .node child) →
    arena.Keeps height field.2

variable {arena : Arena} {height : Nat} {kind : NodeKind}

/-- A node that starts with no operand. -/
theorem Fits.plain (none : kind.first? = none) (keeps : arena.KeepsAll height kind.fields) :
    arena.Fits height kind := by
  refine ⟨fun child isFirst => ?_, fun field member _ => keeps field member⟩
  rw [none] at isFirst
  contradiction

/-- A node that starts with an operand. -/
theorem Fits.leading {lead : NodeId} {field : String} {rest : List (String × Child)}
    (isFirst : kind.first? = some lead) (fields : kind.fields = NodeKind.one field lead ++ rest)
    (shallow : arena.Shallow (height + 1) lead) (keeps : arena.KeepsAll height rest) :
    arena.Fits height kind := by
  refine ⟨fun child isChild => ?_, fun field member other => ?_⟩
  · obtain rfl := Option.some.inj (isFirst.symm.trans isChild)
    exact shallow
  · rw [fields] at member
    rcases List.mem_append.mp member with first | later
    · rw [List.mem_singleton.mp first] at other
      exact absurd rfl (other lead isFirst)
    · exact keeps field later

end Arena

open Arena (Fact keepsAll_nil keepsAll_one keepsAll_many keepsAll_optional)

/-- From an arena of which a fact is known, a reading adds to the arena, and its answer, if it
succeeds, comes with another fact. -/
def Parse.Builds {α : Type} (reading : Parse α) (known : Fact) (gives : α → Fact) : Prop :=
  ∀ start : Parser, known.holds start.arena → reading.Outcome start
    (fun answer now => start.arena.Grows now.arena ∧ (gives answer).holds now.arena)
    fun _ now => start.arena.Grows now.arena

/-- From any arena, a reading adds to it. -/
abbrev Parse.Adds {α : Type} (reading : Parse α) : Prop := reading.Builds .none fun _ => .none

namespace Parse.Builds

variable {α β : Type} {reading : Parse α} {next : α → Parse β} {known stronger : Fact}
  {gives weaker : α → Fact} {last : β → Fact} {height more : Nat}

/-- What a reading builds later is added to what was built before. -/
theorem andThen {start now : Parser} (grows : start.arena.Grows now.arena)
    (builds : reading.Builds known gives) (holds : known.holds now.arena) :
    reading.Outcome now
      (fun answer final => start.arena.Grows final.arena ∧ (gives answer).holds final.arena)
      fun _ final => start.arena.Grows final.arena :=
  Parse.Outcome.mono (builds now holds) (fun _ _ ⟨further, given⟩ => ⟨grows.trans further, given⟩)
    fun _ _ further => grows.trans further

/-- More is known, or less is wanted. -/
theorem imp (builds : reading.Builds stronger gives)
    (enough : ∀ arena, known.holds arena → stronger.holds arena)
    (weakens : ∀ answer arena, (gives answer).holds arena → (weaker answer).holds arena) :
    reading.Builds known weaker :=
  fun start holds => Parse.Outcome.imp (builds start (enough _ holds))
    fun answer now ⟨grows, given⟩ => ⟨grows, weakens answer now.arena given⟩

/-- What is built from any arena is built from one of which something is known. -/
theorem anywhere (builds : reading.Builds .none gives) : reading.Builds known gives :=
  builds.imp (fun _ _ => trivial) fun _ _ given => given

/-- A reading of a node admits more. -/
theorem le {reading : Parse NodeId} (builds : reading.Builds known fun id => .node height id)
    (le : height ≤ more) : reading.Builds known fun id => .node more id :=
  builds.imp (fun _ holds => holds) fun _ _ shallow => Arena.Shallow.le shallow le

/-- An answer. -/
theorem pure (answer : α) (holds : ∀ arena, known.holds arena → (gives answer).holds arena) :
    Parse.Builds (Pure.pure answer) known gives :=
  fun _ given => .pure ⟨.refl _, holds _ given⟩

/-- An answer that comes with nothing. -/
theorem answer (answer : α) : Parse.Adds (Pure.pure answer) := .pure answer fun _ _ => trivial

/-- A failure. -/
theorem throw (error : ParseError) : Parse.Builds (MonadExcept.throw error) known gives :=
  fun _ _ => .throw (.refl _)

/-- One reading after another. -/
theorem bind (first : reading.Builds known gives)
    (second : ∀ answer, (next answer).Builds ((gives answer).and known) last) :
    Parse.Builds (reading >>= next) known last :=
  fun _ holds => .bind ((first _ holds).imp fun answer _ ⟨grows, given⟩ =>
    (second answer).andThen grows ⟨given, known.lasts grows holds⟩)

/-- A reading whose answer comes with nothing, before another. -/
theorem skip (first : reading.Adds) (second : ∀ answer, (next answer).Builds known last) :
    Parse.Builds (reading >>= next) known last :=
  .bind first.anywhere fun answer => (second answer).imp (fun _ both => both.2) fun _ _ given => given

/-- A choice by an answer. -/
theorem choose {found : Bool} {other : Parse α} (yes : reading.Builds known gives)
    (no : other.Builds known gives) :
    Parse.Builds (if found = true then reading else other) known gives := by
  cases found with
  | true => exact yes
  | false => exact no

/-- A node that is read if an answer says so, before other readings. -/
theorem chosen {found : Bool} {reading : Parse NodeId} {next : Option NodeId → Parse β}
    (reads : reading.Builds known fun id => .node height id)
    (goes : ∀ answer, (next answer).Builds ((Fact.nodes height answer.toList).and known) last) :
    Parse.Builds (if found = true then some <$> reading >>= next else Pure.pure none >>= next)
      known last := by
  refine choose ?_ ?_
  · rw [map_eq_pure_bind, bind_assoc]
    exact bind reads fun id => (goes (some id)).imp
      (fun _ both => ⟨List.forall_mem_singleton.mpr both.1, both.2⟩) fun _ _ given => given
  · exact (goes none).imp (fun _ holds => ⟨List.forall_mem_nil _, holds⟩) fun _ _ given => given

/-- A step that leaves the arena. -/
theorem still {step : Build α} (same : ∀ parser : Parser, (step parser).2.arena = parser.arena) :
    Parse.Adds (liftM step) := by
  refine fun start _ => .lift ⟨?_, trivial⟩
  rw [same]
  exact .refl _

/-- A step of the cursor. -/
theorem onCursor {step : Cursor → α × Cursor} : Parse.Adds (liftM (Build.onCursor step)) :=
  .still fun _ => rfl

/-- A step that adds a node. -/
theorem adding {step : Build NodeId} {kind : NodeKind}
    (adds : ∀ parser : Parser, ∃ span, ((step parser).1, (step parser).2.arena) =
      parser.arena.add kind span)
    (fits : ∀ arena, known.holds arena → arena.Fits height kind) :
    Parse.Builds (liftM step) known fun id => .node (height + 1) id := by
  intro start holds
  obtain ⟨span, same⟩ := adds start
  obtain ⟨first, others⟩ := fits start.arena holds
  refine .lift ⟨?_, ?_⟩
  · rw [show (step start).2.arena = (start.arena.add kind span).2 from congrArg Prod.snd same]
    exact start.arena.grows_add kind span
  · have shallow := Arena.shallow_add span first others
    rw [← same] at shallow
    exact shallow

/-- Adding a node. -/
theorem addNode {kind : NodeKind} {span : Span}
    (fits : ∀ arena, known.holds arena → arena.Fits height kind) :
    Parse.Builds (liftM (Build.addNode kind span)) known fun id => .node (height + 1) id :=
  .adding (fun _ => ⟨span, rfl⟩) fits

/-- Closing a node. -/
theorem close {kind : NodeKind} {start : Span}
    (fits : ∀ arena, known.holds arena → arena.Fits height kind) :
    Parse.Builds (liftM (Build.close kind start)) known fun id => .node (height + 1) id :=
  .adding (fun _ => ⟨_, rfl⟩) fits

/-- A node of one token. -/
theorem leaf {kind : NodeKind} (fits : ∀ arena, known.holds arena → arena.Fits height kind) :
    Parse.Builds (liftM (Build.leaf kind)) known fun id => .node (height + 1) id :=
  .adding (fun _ => ⟨_, rfl⟩) fits

/-- A name that is a node. -/
theorem identifier {name : Name} {span : Span} :
    Parse.Builds (liftM (Build.addNode (.identifier name) span)) known fun id => .node 1 id :=
  .addNode fun _ _ => .plain rfl keepsAll_nil

/-- A node that is there. -/
theorem just {reading : Parse NodeId} (builds : reading.Builds known fun id => .node height id) :
    Parse.Builds (reading >>= fun id => Pure.pure (some id)) known fun id =>
      .nodes height id.toList :=
  .bind builds fun _ => .pure _ fun _ both => List.forall_mem_singleton.mpr both.1

/-- No node. -/
theorem nothing : Parse.Builds (Pure.pure none) known fun id => .nodes height id.toList :=
  .pure _ fun _ _ => List.forall_mem_nil _

/-- Adding a list of children. -/
theorem addList {ids : Array NodeId}
    (shallow : ∀ arena, known.holds arena → ∀ id ∈ ids.toList, arena.Shallow height id) :
    Parse.Builds (liftM (Build.addList ids)) known fun range => .child height (.list range) := by
  intro start holds
  have grows := start.arena.grows_addList ids.toList
  refine .lift ⟨grows, start.arena.contains_addList ids.toList, fun id member => ?_⟩
  have among : id ∈ ids.toList := (start.arena.list_addList ids.toList) ▸ member
  exact (shallow start.arena holds id among).mono grows

/-- Closing a node that has a list of children and nothing else. -/
theorem closeList {ids : Array NodeId} {kind : NodeRange → NodeKind} {field : String} {start : Span}
    (starts : ∀ range, (kind range).first? = none)
    (fields : ∀ range, (kind range).fields = NodeKind.many field range) :
    Parse.Builds (liftM (Build.addList ids) >>= fun range => liftM (Build.close (kind range) start))
      ((Fact.nodes height ids.toList).and known) fun id => .node (height + 1) id :=
  .bind (.addList fun _ both => both.1) fun range => .close fun _ both =>
    .plain (starts range) (fields range ▸ keepsAll_many.mpr both.1)

/-- Adding a list of names. -/
theorem addNames (names : Array Name) : Parse.Adds (liftM (Build.addNames names)) :=
  fun start _ => .lift ⟨start.arena.grows_addNames names.toList, trivial⟩

/-- A loop. -/
theorem loop {grammar : Grammar} {start : α} {round : α → Parse (ForInStep α)}
    (begins : ∀ arena, known.holds arena → (gives start).holds arena)
    (keeps : ∀ state, (round state).Builds ((gives state).and known) fun result =>
      gives result.value) :
    Parse.Builds (grammar.loop start round) known gives := by
  rw [Grammar.loop]
  generalize grammar.rounds = count
  suffices ∀ state, Parse.Builds (Grammar.repeatWithin round count state)
      ((gives state).and known) gives from
    (this start).imp (fun arena holds => ⟨begins arena holds, holds⟩) fun _ _ given => given
  induction count with
  | zero => exact fun state => .pure state fun _ both => both.1
  | succ count ih =>
    intro state
    refine .bind (keeps state) fun result => ?_
    cases result with
    | done state => exact .pure state fun _ both => both.1
    | yield state => exact (ih state).imp (fun _ both => ⟨both.1, both.2.2⟩) fun _ _ given => given

/-- A loop of which nothing need be known. -/
theorem loopAny {grammar : Grammar} {start : α} {round : α → Parse (ForInStep α)}
    (adds : ∀ state, (round state).Adds) : Parse.Adds (grammar.loop start round) :=
  .loop (fun _ _ => trivial) fun state => (adds state).anywhere

/-- A node more among those that were read. -/
theorem push {items : Array NodeId} {id : NodeId} {result : ForInStep (Array NodeId)}
    (same : result.value = items.push id) :
    Parse.Builds (Pure.pure result)
      ((Fact.node height id).and ((Fact.nodes height items.toList).and known)) fun result =>
        .nodes height result.value.toList := by
  refine .pure _ fun arena ⟨shallow, others, _⟩ => ?_
  show ∀ child ∈ result.value.toList, arena.Shallow height child
  rw [same, Array.toList_push]
  exact List.forall_mem_append.mpr ⟨others, List.forall_mem_singleton.mpr shallow⟩

section Steps

variable {grammar : Grammar}

/-- A step over a token. -/
theorem advance : Parse.Adds (liftM Build.advance) := .onCursor

/-- A step over a token with a tag, or none. -/
theorem eat (tag : Tag) : Parse.Adds (liftM (Build.eat tag)) := .onCursor

/-- Splitting a symbol. -/
theorem splitSymbol : Parse.Adds (liftM Build.splitSymbol) := .onCursor

/-- Interning a text. -/
theorem intern (text : String) : Parse.Adds (liftM (Build.intern text)) := .onCursor

/-- Asking a question about the tokens ahead. -/
theorem ask (question : Lookahead Bool) : Parse.Adds (liftM (Build.ask question)) := .onCursor

/-- Asking which shape a parameter has. -/
theorem askParameter? : Parse.Adds (liftM Build.askParameter?) := .onCursor

/-- Asking for the cursor. -/
theorem cursor : Parse.Adds (liftM Build.cursor) := .still fun _ => rfl

/-- Asking for the current token. -/
theorem current : Parse.Adds (liftM Build.current) := .still fun _ => rfl

/-- Asking for the tag of the current token. -/
theorem currentTag : Parse.Adds (liftM Build.currentTag) := .still fun _ => rfl

/-- Asking whether the current token has a tag. -/
theorem check (tag : Tag) : Parse.Adds (liftM (Build.check tag)) := .still fun _ => rfl

/-- Asking for the span of a node. -/
theorem nodeSpan (id : NodeId) : Parse.Adds (liftM (Build.nodeSpan id)) := .still fun _ => rfl

/-- Asking for the error of finding the current token. -/
theorem unexpected (code : ErrorCode) (expected : TagSet) :
    Parse.Adds (liftM (Build.unexpected code expected)) := .still fun _ => rfl

/-- Reporting an error. -/
theorem report (error : ParseError) : Parse.Adds (liftM (grammar.report error)) :=
  .still fun parser => parser.arena_reported grammar.options.recovery error

/-- The error of finding the current token. -/
theorem fail {code : ErrorCode} {expected : TagSet} {dress : ParseError → ParseError} :
    Parse.Builds
      (liftM (Build.unexpected code expected) >>= fun error => MonadExcept.throw (dress error))
      known gives :=
  .skip (.unexpected _ _) fun _ => .throw _

/-- The error of finding the current token, before other steps. -/
theorem failFirst {code : ErrorCode} {expected : TagSet} {dress : ParseError → ParseError}
    {next : β → Parse α} :
    Parse.Builds
      (liftM (Build.unexpected code expected) >>= fun error =>
        MonadExcept.throw (dress error) >>= next) known gives :=
  fail

/-- A token with a tag, or a failure. -/
theorem expect (tag : Tag) (construct : Construct) : Parse.Adds (Parse.expect tag construct) :=
  .skip (.check tag) fun _ => .choose .advance .fail

/-- An identifier, or a failure. -/
theorem expectIdentifier (construct : Construct) :
    Parse.Adds (Parse.expectIdentifier construct) := by
  refine .skip .current fun token => ?_
  split
  · exact .skip .advance fun _ => .answer _
  · exact .fail

/-- A constant, or a failure. -/
theorem expectConstant (construct : Construct) : Parse.Adds (Parse.expectConstant construct) := by
  refine .skip .current fun token => ?_
  split
  · exact .skip .advance fun _ => .answer _
  · exact .fail

/-- The `end` of a block, or a failure. -/
theorem expectEnd (opener : Tag) (span : Span) (construct : Construct) :
    Parse.Adds (Parse.expectEnd opener span construct) := by
  refine .skip (.check _) fun found => ?_
  split
  · exact .skip .advance fun _ => .answer _
  · exact .fail

/-- The closing bracket of a list, or a failure. -/
theorem expectCloser (code : ErrorCode) (closer : Tag) (construct : Construct) :
    Parse.Adds (Grammar.expectCloser code closer construct) := by
  refine .skip (.eat closer) fun found => ?_
  split
  · exact .fail
  · exact .answer _

/-- One or more items that build nothing. -/
theorem names {item : Parse α} {separator : Tag} (adds : item.Adds) :
    Parse.Adds (grammar.oneOrMore separator item) :=
  .loopAny fun _ => .skip adds fun _ => .skip (.eat _) fun _ => .answer _

/-- One or more items. -/
theorem oneOrMore {item : Parse NodeId} {separator : Tag}
    (builds : item.Builds .none fun id => .node height id) :
    (grammar.oneOrMore separator item).Builds known fun items => .nodes height items.toList := by
  refine .loop (fun _ _ => List.forall_mem_nil _) fun items => .bind builds.anywhere fun id =>
    .skip (.eat _) fun eaten => .push ?_
  cases eaten <;> rfl

/-- Items up to a closing token. -/
theorem itemsUntil {item : Parse NodeId} {closer : Tag}
    (builds : item.Builds .none fun id => .node height id) :
    (grammar.itemsUntil closer item).Builds known fun items => .nodes height items.toList := by
  refine .loop (fun _ _ => List.forall_mem_nil _) fun items => .skip (.check _) fun closes => ?_
  dsimp only
  split
  · exact .pure _ fun _ both => both.1
  · refine .bind builds.anywhere fun id => .skip (.eat _) fun eaten => .push ?_
    cases eaten <;> rfl

/-- Clauses that start with a keyword. -/
theorem clauses {clause : Parse NodeId} {keyword : Tag}
    (builds : clause.Builds .none fun id => .node height id) :
    (grammar.clauses keyword clause).Builds known fun items => .nodes height items.toList := by
  refine .loop (fun _ _ => List.forall_mem_nil _) fun items => .skip (.check _) fun found => ?_
  split
  · exact .bind builds.anywhere fun id => .push rfl
  · exact .pure _ fun _ both => both.1

end Steps

end Parse.Builds

/-- An abandoned construct gives way to an error node in the arena where it began. -/
theorem Parser.shallow_abandon {start now : Parser} (grows : start.arena.Grows now.arena) :
    Build.Outcome (Grammar.abandon start.checkpoint) now fun id final =>
      start.arena.Grows final.arena ∧ final.arena.Shallow 1 id := by
  refine (Parser.added_abandon start now).mono fun id final ⟨stop, same⟩ => ?_
  have taken : now.arena.truncate start.checkpoint.mark = start.arena := grows.truncate
  rw [taken] at same
  obtain ⟨first, others⟩ : start.arena.Fits 0 .error := .plain rfl keepsAll_nil
  have shallow := Arena.shallow_add ⟨start.cursor.current.span.start, stop⟩ first others
  rw [← same] at shallow
  refine ⟨?_, shallow⟩
  rw [show final.arena = _ from congrArg Prod.snd same]
  exact start.arena.grows_add _ _

namespace Parse.Builds

variable {grammar : Grammar} {α : Type} {known : Fact} {height : Nat}

/-- A construct that is read, or gives way to an error node. -/
theorem attempt {reading : Parse NodeId} {skip : Cursor → α × Cursor} {ids : Array NodeId}
    (positive : 1 ≤ height) (builds : reading.Builds .none fun id => .node height id) :
    Parse.Builds (liftM (grammar.attemptStep reading skip ids))
      ((Fact.nodes height ids.toList).and known) fun result => .nodes height result.value.toList := by
  intro start holds
  have ends {now : Parser} {id : NodeId} (grows : start.arena.Grows now.arena)
      (shallow : now.arena.Shallow height id) :
      start.arena.Grows now.arena ∧ ∀ child ∈ (ids.push id).toList, now.arena.Shallow height child := by
    rw [Array.toList_push]
    exact ⟨grows, List.forall_mem_append.mpr ⟨(Fact.nodes _ _).lasts grows holds.1,
      List.forall_mem_singleton.mpr shallow⟩⟩
  have read := builds start trivial
  rw [Parse.Outcome, Build.Outcome] at read
  refine .lift ?_
  rw [Build.Outcome, Grammar.attemptStep_eq]
  generalize reading.run start = outcome at read
  obtain ⟨result, failed⟩ := outcome
  cases result with
  | ok id => exact ends read.1 read.2
  | error error =>
    -- The construct failed: what it built is taken back.
    have grows : start.arena.Grows ((failed.reported grammar.options.recovery error).withCursor
        (skip (failed.reported grammar.options.recovery error).cursor).2).arena := by
      show start.arena.Grows (failed.reported grammar.options.recovery error).arena
      rw [Parser.arena_reported]
      exact read
    obtain ⟨further, shallow⟩ := Parser.shallow_abandon grows
    exact ends further (shallow.le positive)

/-- Skipping the rest of the text. -/
theorem skipToEnd : Parse.Adds (liftM Build.skipToEnd) := .onCursor

/-- Asking whether to halt. -/
theorem shouldHalt : Parse.Adds (liftM grammar.shouldHalt) := .still fun _ => rfl

/-- A claimed directive is a node without children. -/
theorem directive (token : Token Name) :
    Parse.Builds (liftM (Grammar.directive token)) known fun id => .node 1 id := by
  unfold Grammar.directive
  split
  · exact .addNode fun _ _ => .plain rfl keepsAll_nil
  · rw [liftM_bind]
    refine .skip .cursor fun cursor => ?_
    rw [liftM_bind]
    refine .skip (.still (Grammar.arena_internAll _)) fun names => ?_
    rw [liftM_bind]
    exact .skip (.addNames _) fun _ => .addNode fun _ _ => .plain rfl keepsAll_nil

/-- A string literal. -/
theorem stringLiteral : grammar.stringLiteral.Builds known fun id => .node 1 id := by
  rw [Grammar.stringLiteral_eq]
  refine .skip (.expect _ _) fun opening => .skip (.loopAny fun text => ?_) fun value =>
    .skip (.intern _) fun _ => .close fun _ _ => .plain rfl keepsAll_nil
  refine .skip .cursor fun cursor => ?_
  cases cursor.current.kind with
  | stringContent run => exact .skip .advance fun _ => .answer _
  | stringEscape char => exact .skip .advance fun _ => .answer _
  | stringClose => exact .skip .advance fun _ => .answer _
  | _ => exact .fail

/-- The names between the bars of a block. -/
theorem blockParameters : Parse.Adds grammar.blockParameters := by
  refine .skip (.eat _) fun found => ?_
  split
  · exact .skip (.names (.expectIdentifier _)) fun _ => .skip (.expect _ _) fun _ => .addNames _
  · exact .addNames _

/-- A node of one token. -/
theorem literal {literal : NodeKind} {kind : TokenKind Name}
    (same : Grammar.literal? kind = some literal) :
    Parse.Builds (liftM (Build.leaf literal)) known fun id => .node 1 id := by
  refine .leaf fun _ _ => ?_
  have bare : literal.first? = none ∧ literal.fields = [] := by
    unfold Grammar.literal? at same
    split at same <;> first | (obtain rfl := Option.some.inj same; exact ⟨rfl, rfl⟩) | contradiction
  exact .plain bare.1 (bare.2 ▸ keepsAll_nil)

/-- The type that an identifier names. -/
theorem namedType (name : Name) : Parse.Adds (liftM (Grammar.namedType name)) := by
  rw [Grammar.namedType, liftM_bind]
  refine .skip .cursor fun cursor => ?_
  dsimp only
  split
  · split
    · exact .answer _
    · rw [liftM_bind]
      exact .skip (.intern _) fun _ => .answer _
  · exact .answer _

/-- A type name. -/
theorem typeName : Grammar.typeName.Builds known fun id => .node 1 id := by
  refine .skip .current fun token => ?_
  have word (reference : TypeReference) (isMarked : Bool) :
      Parse.Builds (do
        let _ ← Build.advance
        let isMarkedAfter ← Build.eat .question
        Build.close (.typeName reference (isMarked || isMarkedAfter)) token.span)
        known fun id => .node 1 id :=
    .skip .advance fun _ => .skip (.eat _) fun _ => .close fun _ _ => .plain rfl keepsAll_nil
  dsimp only
  split
  · exact .skip (.namedType _) fun _ => word _ _
  · exact .skip (.answer _) fun _ => word _ _
  · exact .skip (.answer _) fun _ => word _ _
  · exact .failFirst

/-- A type. -/
theorem typeUnion : grammar.typeUnion.Builds known fun id => .node 2 id :=
  .skip .current fun _ => .bind (.oneOrMore .typeName) fun _ => .closeList (fun _ => rfl) fun _ => rfl

/-- The name of a method. -/
theorem methodName : Parse.Adds Grammar.methodName := by
  refine .skip (.ask _) fun isSingleton => ?_
  split
  · exact .skip .advance fun _ => .skip .advance fun _ => .skip (.expectIdentifier _) fun _ =>
      .answer _
  · exact .skip (.expectIdentifier _) fun _ => .answer _

/-- Accessor declarations. -/
theorem accessors (kind : AccessorKind) :
    (grammar.accessors kind).Builds known fun id => .node 1 id :=
  .skip .advance fun _ => .skip (.names (.expectIdentifier _)) fun _ => .skip (.addNames _) fun _ =>
    .close fun _ _ => .plain rfl keepsAll_nil

/-- The constant that names the errors to rescue. -/
theorem rescueFilter? : Parse.Adds Grammar.rescueFilter? :=
  .skip (.ask _) fun _ => .choose
    (.skip .advance fun _ => .skip (.expectConstant _) fun _ => .skip (.expect _ _) fun _ =>
      .answer _) (.answer _)

/-- The local name of an import. -/
theorem asName? : grammar.asName?.Builds known fun id => .nodes 1 id.toList := by
  refine .skip (.eat _) fun found => .choose ?_ .nothing
  exact .skip (.expectIdentifier _) fun _ => .skip (.expect _ _) fun _ => .just .stringLiteral

/-- An import. -/
theorem requireImport : grammar.requireImport.Builds known fun id => .node 2 id := by
  refine .skip (.expectIdentifier _) fun _ => .bind .identifier fun target =>
    .skip (.expect _ _) fun _ => .skip (.expectIdentifier _) fun _ => .skip (.expect _ _) fun _ => ?_
  exact .bind .stringLiteral fun path => .bind .asName? fun asName =>
    .skip (.expect _ _) fun _ => .close fun arena known => .plain rfl (by simp_all [NodeKind.fields])

end Parse.Builds

end Vibescript
