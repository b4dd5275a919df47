import Mathlib.Data.List.Induction
import Vibescript.Proofs.NameTable

/-!
# Texts and their numbers

A name table is filled by requests, some of which a full table may refuse. As long as there is room,
every request is answered, and after any requests the map and the list of the table describe one
correspondence: the distinct texts, the empty one before all others, and their places in the order
of first appearance. So names tell texts apart, and a name reads its text for ever.
-/
namespace Vibescript.NameTable

/-- A request to intern a text. -/
inductive Request where
  /-- Where there is known to be room. -/
  | intern (text : String)
  /-- Where the table may be full. -/
  | tryIntern (text : String)

/-- The text to intern. -/
def Request.text : Request → String
  | intern text | tryIntern text => text

/-- Answer a request. -/
def answer (table : NameTable) : Request → Except Full (Name × NameTable)
  | .intern text => .ok (table.intern text)
  | .tryIntern text => table.tryIntern text

/-- Answer requests from first to last, up to the first refusal. -/
def answerAll (table : NameTable) : List Request → Except Full (List Name × NameTable)
  | [] => .ok ([], table)
  | request :: requests => do
    let (name, table) ← table.answer request
    let (names, table) ← table.answerAll requests
    return (name :: names, table)

/-- The map and the list of a table describe one correspondence between some texts and their
places. -/
structure Lists (table : NameTable) (listed : List String) : Prop where
  /-- The list has the texts in their order. -/
  texts : table.texts.toList = listed
  /-- No text is there twice. -/
  nodup : listed.Nodup
  /-- The map leads each text to its place, and nothing else anywhere. -/
  names : ∀ (text : String) (name : Name), table.names[text]? = some name ↔
    listed[name.index]? = some text

/-! ### One text -/

variable {table : NameTable} {text : String}

/-- A sound table lists its texts. -/
theorem Sound.lists (sound : table.Sound) : table.Lists table.texts.toList := by
  have names (text : String) (name : Name) : table.names[text]? = some name ↔
      table.texts.toList[name.index]? = some text := by
    rw [Array.getElem?_toList]
    exact sound text name
  refine ⟨rfl, List.pairwise_iff_getElem.mpr ?_, names⟩
  intro place other inside insideToo before same
  -- The map would lead the text to both places.
  have leads := (names _ ⟨place⟩).mpr (List.getElem?_eq_getElem inside)
  have leadsToo := (names _ ⟨other⟩).mpr (List.getElem?_eq_getElem insideToo)
  rw [same, leadsToo] at leads
  exact absurd (Name.mk.inj (Option.some.inj leads)) (Nat.ne_of_gt before)

/-- A text that is there already changes nothing. -/
theorem intern_of_mem (sound : table.Sound) (known : text ∈ table.texts.toList) :
    (table.intern text).2 = table := by
  obtain ⟨place, found⟩ := List.mem_iff_getElem?.mp known
  have leads := (sound.lists.names text ⟨place⟩).mpr found
  rw [intern, leads]

/-- A new text comes last. -/
theorem texts_intern_of_notMem (sound : table.Sound) (fresh : text ∉ table.texts.toList) :
    (table.intern text).2.texts.toList = table.texts.toList ++ [text] := by
  have absent : table.names[text]? = none := by
    rw [Option.eq_none_iff_forall_ne_some]
    exact fun name found => fresh (List.mem_of_getElem? ((sound.lists.names text name).mp found))
  rw [intern, absent]
  exact Array.toList_push

/-- A table with room for what it then holds does not refuse a text. -/
theorem tryIntern_eq_ok (room : (table.intern text).2.size ≤ capacity) :
    table.tryIntern text = .ok (table.intern text) := by
  rw [tryIntern, if_neg]
  rintro ⟨absent, full⟩
  have added : (table.intern text).2.size = table.texts.size + 1 := by
    rw [intern, Option.isNone_iff_eq_none.mp absent]
    exact Array.size_push _
  omega

/-! ### Many texts -/

/-- Texts are interned one after the other. -/
theorem internAll_cons (table : NameTable) (text : String) (texts : List String) :
    table.internAll (text :: texts) = ((table.intern text).1 ::
      ((table.intern text).2.internAll texts).1, ((table.intern text).2.internAll texts).2) := rfl

/-- Texts after texts. -/
theorem internAll_append (table : NameTable) (texts more : List String) :
    (table.internAll (texts ++ more)).2 = ((table.internAll texts).2.internAll more).2 := by
  induction texts generalizing table with
  | nil => rfl
  | cons text texts ih =>
    rw [List.cons_append, internAll_cons, internAll_cons]
    exact ih _

/-- Texts are interned one by one. -/
theorem interns_internAll (table : NameTable) (texts : List String) :
    table.Interns (table.internAll texts).2 := by
  induction texts generalizing table with
  | nil => exact .refl
  | cons text texts ih => exact Interns.trans (.intern .refl text) (ih _)

/-- The names of texts read them, also after the texts that are interned later. -/
theorem map_text_internAll (sound : table.Sound) (texts : List String) :
    (table.internAll texts).1.map (table.internAll texts).2.text = texts ∧
      ∀ name ∈ (table.internAll texts).1, (table.internAll texts).2.Holds name := by
  induction texts generalizing table with
  | nil => exact ⟨rfl, List.forall_mem_nil _⟩
  | cons text texts ih =>
    obtain ⟨reads, held⟩ := ih (sound_intern sound text)
    have grows := (interns_internAll (table.intern text).2 texts).grows
    have holds := holds_intern sound text
    rw [internAll_cons]
    refine ⟨?_, List.forall_mem_cons.mpr ⟨grows.holds holds, held⟩⟩
    rw [List.map_cons, reads, grows.text holds, text_intern sound]

/-- The table of some texts has each of them once, in the order of first appearance. -/
theorem texts_internAll_bare (texts : List String) :
    (bare.internAll texts).2.texts.toList = texts.eraseDups := by
  induction texts using List.reverseRecOn with
  | nil => rfl
  | append_singleton texts text ih =>
    have sound := (interns_internAll bare texts).sound sound_bare
    rw [internAll_append, List.eraseDups_append, ← ih]
    show ((bare.internAll texts).2.intern text).2.texts.toList = _
    by_cases known : text ∈ texts
    · have again : [text].removeAll texts = [] := by simp [List.removeAll, known]
      rw [intern_of_mem sound (ih ▸ List.mem_eraseDups.mpr known), again]
      exact (List.append_nil _).symm
    · have fresh : [text].removeAll texts = [text] := by simp [List.removeAll, known]
      rw [texts_intern_of_notMem sound (ih ▸ fun member => known (List.mem_eraseDups.mp member)),
        fresh]
      rfl

/-! ### Many requests -/

/-- As long as there is room, requests are answered by interning their texts. -/
theorem answerAll_eq_ok (requests : List Request)
    (room : (table.internAll (requests.map Request.text)).2.size ≤ capacity) :
    table.answerAll requests = .ok (table.internAll (requests.map Request.text)) := by
  induction requests generalizing table with
  | nil => rfl
  | cons request requests ih =>
    rw [List.map_cons, internAll_cons] at room ⊢
    have interns := interns_internAll (table.intern request.text).2 (requests.map Request.text)
    have first : table.answer request = .ok (table.intern request.text) := by
      cases request with
      | intern text => rfl
      | tryIntern text => exact tryIntern_eq_ok (Nat.le_trans interns.grows.length_le room)
    rw [answerAll, first]
    simp only [bind, Except.bind, ih room, pure, Except.pure]

/-- While there are no more distinct texts than there are numbers, all requests to a new table are
answered. Its map and its list then describe one correspondence: the texts asked for so far, the
empty one first, each once and in the order of first appearance, and their places. The names that
were given, at whatever moment, read their texts, and tell them apart. -/
theorem lists_answerAll (requests : List Request)
    (room : ("" :: requests.map Request.text).eraseDups.length ≤ capacity) :
    ∃ names table, initial.answerAll requests = .ok (names, table) ∧
      table.Lists ("" :: requests.map Request.text).eraseDups ∧
      table.names[""]? = some .empty ∧
      names.map table.text = requests.map Request.text ∧
      ∀ first ∈ names.zip (requests.map Request.text),
        ∀ second ∈ names.zip (requests.map Request.text),
          first.1 = second.1 ↔ first.2 = second.2 := by
  generalize asked : requests.map Request.text = texts at room
  have texts_eq : (initial.internAll texts).2.texts.toList = ("" :: texts).eraseDups :=
    texts_internAll_bare ("" :: texts)
  have sound := (interns_internAll initial texts).sound sound_initial
  have lists : (initial.internAll texts).2.Lists ("" :: texts).eraseDups := texts_eq ▸ sound.lists
  obtain ⟨reads, held⟩ := map_text_internAll sound_initial texts
  have answered : initial.answerAll requests = .ok (initial.internAll texts) := by
    rw [← asked]
    refine answerAll_eq_ok requests (asked ▸ ?_)
    rwa [size, ← Array.length_toList, texts_eq]
  refine ⟨_, _, answered, lists, (lists.names "" .empty).mpr ?_, reads, ?_⟩
  · rw [List.eraseDups_cons]
    rfl
  · -- A name that was given reads the text beside it.
    have pairs : ∀ pair ∈ (initial.internAll texts).1.zip texts,
        (initial.internAll texts).2.Holds pair.1 ∧
          (initial.internAll texts).2.text pair.1 = pair.2 := by
      have zipped := List.zip_map' (f := id) (g := (initial.internAll texts).2.text)
        (l := (initial.internAll texts).1)
      rw [List.map_id, reads] at zipped
      rw [zipped, List.forall_mem_map]
      exact fun name given => ⟨held name given, rfl⟩
    intro first member second memberToo
    obtain ⟨holds, same⟩ := pairs first member
    obtain ⟨holdsToo, sameToo⟩ := pairs second memberToo
    rw [← same, ← sameToo]
    exact ⟨congrArg _, sound.text_inj holds holdsToo⟩

/-- Two texts, one of them twice, and the empty text, which has a name from the start. -/
theorem lists_answerAll_repeated :
    ("" :: [Request.intern "x", .tryIntern "", .tryIntern "y", .intern "x"].map
        Request.text).eraseDups.length ≤ capacity ∧
      ∃ names table, initial.answerAll [.intern "x", .tryIntern "", .tryIntern "y", .intern "x"] =
          .ok (names, table) ∧
        table.Lists ["", "x", "y"] ∧ names.map table.text = ["x", "", "y", "x"] := by
  have room : ("" :: [Request.intern "x", .tryIntern "", .tryIntern "y", .intern "x"].map
      Request.text).eraseDups.length ≤ capacity := by decide +kernel
  obtain ⟨names, table, answered, lists, _, reads, _⟩ := lists_answerAll _ room
  exact ⟨room, names, table, answered, lists, reads⟩

end Vibescript.NameTable
