import Mathlib.Data.List.Induction
import Vibescript.Proofs.Tree.Growth

/-!
# Returning to marks

Whoever builds a tree keeps handles to what was added, makes marks, and takes back what was added
since a mark. Marks are used as a stack: returning to one gives up the marks made after it, and with
them the handles got after it, whose numbers are given again. A history is what the user of an arena
knows: the handles that are good, and the live marks with what was known when they were made.

What a step does to the pools is told by `Arena.Grows`: the arena of each live mark starts that of
every later one, and the present arena. So a mark restores its arena, and until then everything that
could be read when it was made reads the same.
-/
namespace Vibescript.Arena

/-- Something to add to an arena. -/
inductive Addition where
  /-- A node. -/
  | node (kind : NodeKind) (span : Span)
  /-- A list of children. -/
  | list (ids : List NodeId)
  /-- A list of names. -/
  | names (names : List Name)
  deriving DecidableEq

/-- What stands for something that was added. -/
inductive Handle where
  /-- The number of a node. -/
  | node (id : NodeId)
  /-- The range of a list of children. -/
  | list (range : NodeRange)
  /-- The range of a list of names. -/
  | names (range : NameRange)
  deriving DecidableEq

/-- Add something. -/
def extend (arena : Arena) : Addition → Handle × Arena
  | .node kind span => (.node (arena.add kind span).1, (arena.add kind span).2)
  | .list ids => (.list (arena.addList ids).1, (arena.addList ids).2)
  | .names names => (.names (arena.addNames names).1, (arena.addNames names).2)

/-- Whether a handle lies in its pool and reads there what was added. -/
def Reads (arena : Arena) : Handle → Addition → Prop
  | .node id, .node kind span => arena.node? id = some ⟨kind, span⟩
  | .list range, .list ids => arena.Contains range ∧ arena.list range = ids
  | .names range, .names names => arena.ContainsNames range ∧ arena.nameList range = names
  | _, _ => False

/-- A handle with what it was got for. -/
structure Entry where
  /-- The handle. -/
  handle : Handle
  /-- What was added. -/
  addition : Addition
  deriving DecidableEq

variable {arena before after : Arena}

/-- Adding something grows the arena. -/
theorem grows_extend (arena : Arena) (addition : Addition) :
    arena.Grows (arena.extend addition).2 := by
  cases addition with
  | node kind span => exact arena.grows_add kind span
  | list ids => exact arena.grows_addList ids
  | names names => exact arena.grows_addNames names

/-- A handle that was just got reads what was added. -/
theorem reads_extend (arena : Arena) (addition : Addition) :
    (arena.extend addition).2.Reads (arena.extend addition).1 addition := by
  cases addition with
  | node kind span => exact arena.node?_add kind span
  | list ids => exact ⟨arena.contains_addList ids, arena.list_addList ids⟩
  | names names => exact ⟨arena.containsNames_addNames names, arena.nameList_addNames names⟩

/-- A handle reads the same while the arena grows. -/
theorem Grows.reads (grows : before.Grows after) {handle : Handle} {addition : Addition}
    (reads : before.Reads handle addition) : after.Reads handle addition := by
  cases handle <;> cases addition <;> first | exact reads.elim | skip
  case node.node => exact grows.node? reads
  case list.list => exact ⟨grows.contains reads.1, (grows.list reads.1).trans reads.2⟩
  case names.names => exact ⟨grows.containsNames reads.1, (grows.nameList reads.1).trans reads.2⟩

/-- The empty list reads as empty. -/
@[simp] theorem list_empty (arena : Arena) : arena.list .empty = [] := by
  simp [list, NodeRange.empty]

/-- The empty list of names reads as empty. -/
@[simp] theorem nameList_empty (arena : Arena) : arena.nameList .empty = [] := by
  simp [nameList, NameRange.empty]

/-- One use of an arena. -/
inductive Use where
  /-- Something is added. -/
  | extend (addition : Addition)
  /-- A mark is made. -/
  | mark
  /-- A live mark is returned to. So many live marks were made after it. -/
  | truncate (later : Nat)
  deriving DecidableEq

/-- A mark, and what there was when it was made. -/
structure Moment where
  /-- The mark. -/
  mark : ArenaMark
  /-- The pools. -/
  arena : Arena
  /-- The handles that were good. -/
  held : List Entry
  deriving DecidableEq

/-- An arena that is used, and what its user knows. -/
structure History where
  /-- The pools. -/
  arena : Arena
  /-- The handles that are good, the last first. -/
  held : List Entry
  /-- The live marks, the last first. -/
  marks : List Moment
  deriving DecidableEq

namespace History

/-- An arena that was not used yet. -/
def start : History := ⟨.empty, [], []⟩

/-- What there is now. -/
def moment (history : History) : Moment := ⟨history.arena.mark, history.arena, history.held⟩

/-- Use the arena. There is no way to return to a mark that is not live. -/
def step (history : History) : Use → Option History
  | .extend addition =>
    let (handle, arena) := history.arena.extend addition
    some ⟨arena, ⟨handle, addition⟩ :: history.held, history.marks⟩
  | .mark => some { history with marks := history.moment :: history.marks }
  | .truncate later =>
    match history.marks.drop later with
    | [] => none
    | moment :: marks => some ⟨history.arena.truncate moment.mark, moment.held, moment :: marks⟩

/-- Use the arena again and again. -/
def run (history : History) (uses : List Use) : Option History := uses.foldlM step history

end History

/-- A moment as it can be: the mark is that of the pools, and the good handles read what was
added. -/
structure Moment.Sound (moment : Moment) : Prop where
  /-- The mark is that of the pools. -/
  mark : moment.mark = moment.arena.mark
  /-- The good handles read what was added. -/
  held : ∀ entry ∈ moment.held, moment.arena.Reads entry.handle entry.addition

/-- A history as it can be. -/
structure History.Sound (history : History) : Prop where
  /-- The good handles read what was added. -/
  held : ∀ entry ∈ history.held, history.arena.Reads entry.handle entry.addition
  /-- The live marks are sound. -/
  marks : ∀ moment ∈ history.marks, moment.Sound
  /-- The pools of earlier marks start those of later ones, and those that there are now. -/
  grows : (history.arena :: history.marks.map Moment.arena).Pairwise
    fun later earlier => earlier.Grows later

namespace History

variable {history later : History} {use : Use}

/-- The pools of a live mark start those that there are now. -/
theorem Sound.grows_of_mem (sound : history.Sound) {moment : Moment}
    (live : moment ∈ history.marks) : moment.arena.Grows history.arena :=
  (List.pairwise_cons.mp sound.grows).1 _ (List.mem_map_of_mem live)

/-- Returning to a live mark gives back its pools. -/
theorem Sound.truncate (sound : history.Sound) {moment : Moment} (live : moment ∈ history.marks) :
    history.arena.truncate moment.mark = moment.arena := by
  rw [(sound.marks moment live).mark]
  exact (sound.grows_of_mem live).truncate

/-- A return is to a live mark, which stays live; what is good is what was good at the mark. -/
theorem step_truncate {count : Nat} (used : history.step (.truncate count) = some later) :
    ∃ moment marks, history.marks.drop count = moment :: marks ∧
      later = ⟨history.arena.truncate moment.mark, moment.held, moment :: marks⟩ := by
  rw [step] at used
  split at used
  · contradiction
  · next moment marks dropped => exact ⟨moment, marks, dropped, (Option.some.inj used).symm⟩

/-- Every use keeps a history sound. -/
theorem Sound.step (sound : history.Sound) (used : history.step use = some later) :
    later.Sound := by
  obtain ⟨current, earlier⟩ := List.pairwise_cons.mp sound.grows
  cases use with
  | extend addition =>
    obtain rfl := Option.some.inj used
    have grows := history.arena.grows_extend addition
    refine ⟨List.forall_mem_cons.mpr ⟨history.arena.reads_extend addition, ?_⟩, sound.marks, ?_⟩
    · exact fun entry good => grows.reads (sound.held entry good)
    · exact List.pairwise_cons.mpr ⟨fun arena live => (current arena live).trans grows, earlier⟩
  | mark =>
    obtain rfl := Option.some.inj used
    refine ⟨sound.held, List.forall_mem_cons.mpr ⟨⟨rfl, sound.held⟩, sound.marks⟩, ?_⟩
    exact List.pairwise_cons.mpr ⟨List.forall_mem_cons.mpr ⟨.refl _, current⟩, sound.grows⟩
  | truncate count =>
    obtain ⟨moment, marks, dropped, rfl⟩ := step_truncate used
    have kept : moment :: marks <:+ history.marks := dropped ▸ List.drop_suffix count _
    have live : moment ∈ history.marks := kept.subset List.mem_cons_self
    have order := earlier.sublist (kept.map Moment.arena).sublist
    have good := (sound.marks moment live).held
    rw [sound.truncate live]
    refine ⟨good, fun other member => sound.marks other (kept.subset member), ?_⟩
    exact List.pairwise_cons.mpr
      ⟨List.forall_mem_cons.mpr ⟨.refl _, (List.pairwise_cons.mp order).1⟩, order⟩

/-- A live mark was live before, or it was made now. -/
theorem mem_marks_step (used : history.step use = some later) {moment : Moment}
    (live : moment ∈ later.marks) :
    moment ∈ history.marks ∨ use = .mark ∧ moment = history.moment := by
  cases use with
  | extend addition =>
    obtain rfl := Option.some.inj used
    exact .inl live
  | mark =>
    obtain rfl := Option.some.inj used
    exact (List.mem_cons.mp live).symm.imp_right fun same => ⟨rfl, same⟩
  | truncate count =>
    obtain ⟨other, marks, dropped, rfl⟩ := step_truncate used
    exact .inl (List.mem_of_mem_drop (dropped ▸ live))

/-- One use after others. -/
theorem run_concat {uses : List Use} (ran : history.run (uses ++ [use]) = some later) :
    ∃ between, history.run uses = some between ∧ between.step use = some later := by
  rw [run, List.foldlM_append] at ran
  obtain ⟨between, first, last⟩ := Option.bind_eq_some_iff.mp ran
  exact ⟨between, first, by simpa using last⟩

/-- Uses keep a history sound. -/
theorem Sound.run {uses : List Use} (sound : history.Sound) (ran : history.run uses = some later) :
    later.Sound := by
  induction uses using List.reverseRecOn generalizing later with
  | nil =>
    obtain rfl := Option.some.inj ran
    exact sound
  | append_singleton uses use ih =>
    obtain ⟨between, first, last⟩ := run_concat ran
    exact (ih first).step last

/-- An arena that was not used yet is sound. -/
theorem sound_start : start.Sound :=
  ⟨List.forall_mem_nil _, List.forall_mem_nil _, List.pairwise_singleton _ _⟩

/-- A live mark was made by one of the uses, and what is known of it is what there was then. -/
theorem exists_mark {uses : List Use} (ran : start.run uses = some history) {moment : Moment}
    (live : moment ∈ history.marks) :
    ∃ earlier since past, uses = earlier ++ .mark :: since ∧ start.run earlier = some past ∧
      moment = past.moment := by
  induction uses using List.reverseRecOn generalizing history with
  | nil =>
    obtain rfl := Option.some.inj ran
    exact absurd live List.not_mem_nil
  | append_singleton uses use ih =>
    obtain ⟨between, first, last⟩ := run_concat ran
    rcases mem_marks_step last live with before | ⟨rfl, same⟩
    · obtain ⟨earlier, since, past, rfl, reached, same⟩ := ih first before
      exact ⟨earlier, since ++ [use], past, by simp, reached, same⟩
    · exact ⟨uses, [], between, rfl, first, same⟩

end History

/-- What a mark that was made in one arena is good for in another. -/
structure Restores (before after : Arena) (mark : ArenaMark) : Prop where
  /-- Returning to it gives back the pools. -/
  pools : after.truncate mark = before
  /-- What is added next has the handle that it would have got then. -/
  next : ∀ addition, ((after.truncate mark).extend addition).1 = (before.extend addition).1
  /-- What could be read then reads the same, by whatever handle. -/
  reads : ∀ handle addition, before.Reads handle addition → after.Reads handle addition

namespace History

/-- Whatever was added, marked and taken back, each live mark is that of a moment of the history,
whose pools it gives back, and everything that could be read at that moment, as by each handle that
was good then, reads the same. The handles that are good now read what was added. The empty lists
are empty. -/
theorem restores_run (uses : List Use) (history : History) (ran : start.run uses = some history) :
    (∀ moment ∈ history.marks,
      (∃ earlier since past, uses = earlier ++ .mark :: since ∧ start.run earlier = some past ∧
        moment = past.moment) ∧
      moment.arena.Restores history.arena moment.mark ∧
      ∀ entry ∈ moment.held, history.arena.Reads entry.handle entry.addition) ∧
    (∀ entry ∈ history.held, history.arena.Reads entry.handle entry.addition) ∧
    history.arena.list .empty = [] ∧ history.arena.nameList .empty = [] := by
  have sound := sound_start.run ran
  refine ⟨fun moment live => ⟨exists_mark ran live, ?_, ?_⟩, sound.held, list_empty _,
    nameList_empty _⟩
  · have pools := sound.truncate live
    exact ⟨pools, fun addition => by rw [pools],
      fun handle addition => (sound.grows_of_mem live).reads⟩
  · exact fun entry good =>
      (sound.grows_of_mem live).reads ((sound.marks moment live).held entry good)

/-- A node, and after it one that stands where another was taken back. -/
def nested : History where
  arena := ⟨#[⟨.nilLiteral, .point 0⟩, ⟨.selfReference, .point 1⟩], #[], #[]⟩
  held := [⟨.node ⟨1⟩, .node .selfReference (.point 1)⟩, ⟨.node ⟨0⟩, .node .nilLiteral (.point 0)⟩]
  marks := [{
    mark := ⟨1, 0, 0⟩
    arena := ⟨#[⟨.nilLiteral, .point 0⟩], #[], #[]⟩
    held := [⟨.node ⟨0⟩, .node .nilLiteral (.point 0)⟩] }]

/-- A construct that fails inside another that fails is taken back with it, and the number of its
node is given again. -/
theorem restores_run_nested :
    start.run [.extend (.node .nilLiteral (.point 0)), .mark, .extend (.node .error (.point 1)),
        .mark, .extend (.names [⟨0⟩, ⟨0⟩]), .truncate 1,
        .extend (.node .selfReference (.point 1))] = some nested ∧
      ∀ moment ∈ nested.marks, moment.arena.Restores nested.arena moment.mark := by
  have ran : start.run [.extend (.node .nilLiteral (.point 0)), .mark,
      .extend (.node .error (.point 1)), .mark, .extend (.names [⟨0⟩, ⟨0⟩]), .truncate 1,
      .extend (.node .selfReference (.point 1))] = some nested := by decide
  exact ⟨ran, fun moment live => ((restores_run _ _ ran).1 moment live).2.1⟩

end History

end Vibescript.Arena
