import Vibescript.Proofs.Source.DirectiveComments
import Vibescript.Proofs.Tree.Naming
import Vibescript.Proofs.Tree.Outline
import Vibescript.Proofs.Tree.Separation
import Vibescript.Tree.Printer

/-!
# What nodes hold besides their children

A node holds names, flags, numbers and operators, which are shown as words after the name of its
production. The words tell what the node holds, and they are told apart from what follows them.
-/
namespace Vibescript

namespace Text

/-- A character that stands inside one word only, and does not end a label. -/
def isAtomChar (char : Char) : Bool := char != ' ' && char != '(' && char != ')' && char != ':'

/-- A character of a word. -/
def isWordMark (char : Char) : Bool := char != ' ' && char != '(' && char != ')'

/-- A word without a colon. -/
structure IsAtom (text : List Char) : Prop where
  /-- There is a character. -/
  filled : text ≠ []
  /-- Every character may stand in it. -/
  all : ∀ char ∈ text, isAtomChar char = true

variable {text : List Char}

instance : Decidable (IsAtom text) :=
  decidable_of_iff (text ≠ [] ∧ text.all isAtomChar = true)
    ⟨fun ⟨filled, all⟩ => ⟨filled, List.all_eq_true.mp all⟩,
      fun isAtom => ⟨isAtom.filled, List.all_eq_true.mpr isAtom.all⟩⟩

/-- What stands in words without a colon stands in words. -/
theorem isWordMark_of_isAtomChar {char : Char} (isAtom : isAtomChar char = true) :
    isWordMark char = true := by
  rw [isAtomChar, Bool.and_eq_true] at isAtom
  exact isAtom.1

/-- A word without a colon is a word. -/
theorem IsAtom.isWord (isAtom : IsAtom text) : IsWord isWordMark text := by
  refine ⟨isAtom.filled, fun char member => isWordMark_of_isAtomChar (isAtom.all char member),
    fun last => ?_⟩
  have colon := isAtom.all ':' (List.mem_of_getLast? last)
  contradiction

/-- A mark before a word without a colon makes a word. -/
theorem IsAtom.isWord_cons {mark : Char} (isAtom : IsAtom text) (isMark : isWordMark mark = true) :
    IsWord isWordMark (mark :: text) := by
  refine ⟨List.cons_ne_nil _ _, List.forall_mem_cons.mpr ⟨isMark, isAtom.isWord.all⟩, ?_⟩
  rw [List.getLast?_cons_of_ne_nil isAtom.filled]
  exact isAtom.isWord.unlabelled

/-- Words without a colon after each other. -/
theorem IsAtom.append {more : List Char} (all : ∀ char ∈ text, isAtomChar char = true)
    (isAtom : IsAtom more) : IsAtom (text ++ more) :=
  ⟨List.append_ne_nil_of_right_ne_nil _ isAtom.filled, List.forall_mem_append.mpr ⟨all, isAtom.all⟩⟩

/-- More characters after a word without a colon. -/
theorem IsAtom.concat {more : List Char} (isAtom : IsAtom text)
    (all : ∀ char ∈ more, isAtomChar char = true) : IsAtom (text ++ more) :=
  ⟨List.append_ne_nil_of_left_ne_nil isAtom.filled _, List.forall_mem_append.mpr ⟨isAtom.all, all⟩⟩

/-- A name is a word without a colon. -/
theorem IsName.isAtom (isName : IsName text) : IsAtom text := by
  refine ⟨isName.filled, fun char member => ?_⟩
  have allowed := isName.all char member
  simp only [isAtomChar, Bool.and_eq_true, bne_iff_ne]
  refine ⟨⟨⟨?_, ?_⟩, ?_⟩, ?_⟩ <;> rintro rfl <;> contradiction

/-- A digit may stand in a word without a colon. -/
theorem isAtomChar_of_isDigit {char : Char} (isDigit : char.isDigit = true) :
    isAtomChar char = true := by
  simp only [isAtomChar, Bool.and_eq_true, bne_iff_ne]
  refine ⟨⟨⟨?_, ?_⟩, ?_⟩, ?_⟩ <;> rintro rfl <;> contradiction

/-- A number is a word without a colon. -/
theorem isAtom_toDigits (number : Nat) : IsAtom (Nat.toDigits 10 number) :=
  ⟨Nat.toDigits_ne_nil, fun _ member =>
    isAtomChar_of_isDigit (Nat.isDigit_of_mem_toDigits (by decide) (by decide) member)⟩

end Text

namespace Decimal

open Text

/-- Positional notation is a word without a colon. -/
theorem isAtom_positional {digits : List Char} (all : ∀ char ∈ digits, isAtomChar char = true)
    (exponent : Int) : IsAtom (positional digits exponent) := by
  have zeros (count : Nat) : ∀ char ∈ List.replicate count '0', isAtomChar char = true :=
    fun char member => by rw [List.eq_of_mem_replicate member]; rfl
  unfold positional
  split
  · exact .append (List.forall_mem_append.mpr ⟨all, zeros _⟩) (by decide)
  · dsimp only
    generalize isPadded : List.replicate _ '0' ++ digits = padded
    have allPadded : ∀ char ∈ padded, isAtomChar char = true :=
      isPadded ▸ List.forall_mem_append.mpr ⟨zeros _, all⟩
    refine .append (fun char member => allPadded char (List.mem_of_mem_take member))
      ⟨List.cons_ne_nil _ _, List.forall_mem_cons.mpr ⟨rfl, fun char member => ?_⟩⟩
    exact allPadded char (List.mem_of_mem_drop member)

/-- A power of ten is a word without a colon. -/
theorem isAtom_toString (power : Int) : IsAtom (toString power).toList := by
  cases power with
  | ofNat number =>
    rw [show toString (Int.ofNat number) = number.repr from rfl, Nat.toList_repr]
    exact isAtom_toDigits number
  | negSucc number =>
    rw [show toString (Int.negSucc number) = "-" ++ (number + 1).repr from rfl,
      String.toList_append, Nat.toList_repr]
    exact .append (List.all_eq_true.mp (by decide)) (isAtom_toDigits _)

/-- Exponent notation is a word without a colon. -/
theorem isAtom_exponential {mark : Char} {digits : List Char} (isMark : isAtomChar mark = true)
    (all : ∀ char ∈ digits, isAtomChar char = true) (leading : Int) :
    IsAtom (exponential mark digits leading) := by
  have power : IsAtom (mark :: (toString leading).toList) :=
    .append (List.forall_mem_singleton.mpr isMark) (isAtom_toString leading)
  refine .append (List.forall_mem_append.mpr ⟨fun char member => ?_, ?_⟩) power
  · exact all char (List.mem_of_mem_take member)
  · split
    · exact List.forall_mem_nil _
    · exact List.forall_mem_cons.mpr ⟨rfl, fun char member => all char (List.mem_of_mem_drop member)⟩

/-- A decimal is a word without a colon. -/
theorem isAtom_write (decimal : Scientific) : IsAtom (literalLayout.write decimal) := by
  unfold Layout.write
  dsimp only
  split
  · exact isAtom_positional (isAtom_toDigits _).all _
  · exact isAtom_exponential rfl (isAtom_toDigits _).all _

end Decimal

open Text

/-- The text of a float literal is a word without a colon. -/
theorem Binary64.isAtom_text (value : Binary64) : IsAtom value.text.toList := by
  rw [Binary64.text, String.toList_ofList]
  unfold Decimal.Layout.writeBinary
  have sign : ∀ char ∈ (if value.isNegative then ['-'] else []), isAtomChar char = true := by
    split <;> exact List.all_eq_true.mp (by decide)
  dsimp only
  split
  · decide
  · exact .append sign (by decide)
  · exact .append sign (Decimal.isAtom_positional (List.all_eq_true.mp (by decide)) _)
  · exact .append sign (Decimal.isAtom_write _)

/-- What a node holds besides its children. -/
inductive Payload where
  /-- Nothing. -/
  | nothing
  /-- A name, as it is. -/
  | name (text : String)
  /-- The name of a method, with its flags. -/
  | method (isPrivate isSingleton : Bool) (text : String)
  /-- The name of an instance variable. -/
  | instanceVariable (text : String)
  /-- The name of a class variable. -/
  | classVariable (text : String)
  /-- The name of a symbol. -/
  | symbol (text : String)
  /-- The value of a string literal. -/
  | string (text : String)
  /-- The value of an integer literal. -/
  | integer (value : Nat)
  /-- The value of a float literal. -/
  | float (value : Binary64)
  /-- The name of a type, if it is not that of the missing value, and whether it has a mark. -/
  | type (text : Option String) (isNilable : Bool)
  /-- Names one after another. -/
  | names (texts : List String)
  /-- Names between bars. -/
  | bars (texts : List String)
  /-- The name of what is rescued, if not everything is. -/
  | filter (text : Option String)
  /-- A version. -/
  | version (major minor : Nat)
  /-- An operator between operands. -/
  | binary (op : BinaryOp)
  /-- An operator before an operand. -/
  | unary (op : UnaryOp)
  /-- An operator that changes a target. -/
  | compound (op : CompoundOp)

/-- What a node holds besides its children, in full. -/
def SyntaxTree.payload (tree : SyntaxTree) : NodeKind → Payload
  | .method isPrivate name .. => .method isPrivate name.isSingleton (tree.text name.name)
  | .simpleParameter name _ | .typedParameter name .. | .classDeclaration name _
  | .identifier name | .constant name | .call _ name _ _ | .memberAccess _ name _ =>
    .name (tree.text name)
  | .variableParameter name _ | .instanceVariable name => .instanceVariable (tree.text name)
  | .classVariableAssignment name _ | .classVariable name => .classVariable (tree.text name)
  | .symbol name => .symbol (tree.text name)
  | .string value => .string (tree.text value)
  | .integer value => .integer value
  | .float value => .float value
  | .typeName (.named name) isNilable => .type (some (tree.text name)) isNilable
  | .typeName .nil isNilable => .type none isNilable
  | .accessorDeclaration _ names | .usesDirective names => .names (tree.texts names)
  | .block parameters _ => .bars (tree.texts parameters)
  | .rescueClause filter _ => .filter (filter.map tree.text)
  | .versionDirective major minor => .version major minor
  | .binary op _ _ => .binary op
  | .unary op _ => .unary op
  | .compoundAssignment op _ _ => .compound op
  | _ => .nothing

namespace Payload

/-- The words by which it is shown. -/
def words : Payload → List String
  | nothing => []
  | name text => [text]
  | method isPrivate isSingleton text =>
    (if isPrivate then ["private"] else []) ++ [(if isSingleton then "self." else "") ++ text]
  | instanceVariable text => ["@" ++ text]
  | classVariable text => ["@@" ++ text]
  | symbol text => [":" ++ text]
  | string text => [quote text]
  | integer value => [toString value]
  | float value => [value.text]
  | type text isNilable => [text.getD "nil" ++ (if isNilable then "?" else "")]
  | names texts => texts
  | bars texts => if texts = [] then [] else ["|" ++ String.intercalate " " texts ++ "|"]
  | filter text => text.toList
  | version major minor => [s!"{major}.{minor}"]
  | binary op => [op.symbol]
  | unary op => [op.symbol]
  | compound op => [op.symbol]

/-- The names in it are names. -/
def IsNamed : Payload → Prop
  | name text | method _ _ text | instanceVariable text | classVariable text | symbol text =>
    IsName text.toList
  | type (some text) _ => IsName text.toList ∧ text ≠ "nil" ∧ text.toList.getLast? ≠ some '?'
  | names texts | bars texts => ∀ text ∈ texts, IsName text.toList
  | filter text => ∀ name ∈ text, IsName name.toList
  | _ => True

end Payload

namespace SyntaxTree

variable {tree : SyntaxTree} {kind : NodeKind}

/-- A node whose names lie in their pool is shown with the words of what it holds. -/
theorem attributes_eq (inPool : ∀ range ∈ kind.nameRange?, tree.arena.ContainsNames range) :
    tree.attributes kind = (tree.payload kind).words := by
  cases kind
  case typeName reference isNilable => cases reference <;> rfl
  case rescueClause filter body => cases filter <;> rfl
  case block parameters body =>
    have inside : tree.arena.ContainsNames parameters := inPool parameters rfl
    have counted : (tree.texts parameters).length = parameters.size := by
      simp only [texts, Arena.nameList, List.length_map, Array.length_toList, Array.size_extract]
      unfold Arena.ContainsNames at inside
      omega
    have none : parameters.size = 0 ↔ tree.texts parameters = [] := by
      rw [← counted, List.length_eq_zero_iff]
    rw [attributes, payload, Payload.words]
    simp only [none]
  all_goals rfl

/-- What a node holds has names in it where a node is named. -/
theorem isNamed_payload (named : tree.arena.Named tree.names kind) : (tree.payload kind).IsNamed := by
  cases kind
  case typeName reference isNilable =>
    cases reference with
    | named name => exact ⟨named.own rfl name (.head _), named.type name isNilable rfl⟩
    | nil => trivial
  case rescueClause filter body =>
    cases filter with
    | some name =>
      intro text isText
      obtain rfl := Option.mem_some.mp isText
      exact named.own rfl name (.head _)
    | none => exact nofun
  case string => trivial
  all_goals first
    | trivial
    | exact named.own rfl _ (.head _)
    | exact fun text member => by
        obtain ⟨name, listed, rfl⟩ := List.mem_map.mp member
        exact named.listed _ rfl name listed

end SyntaxTree

namespace Text

/-- Names between spaces are told apart. -/
theorem intercalate_inj {lefts rights : List String} (named : ∀ text ∈ lefts, IsName text.toList)
    (namedToo : ∀ text ∈ rights, IsName text.toList) (filled : lefts ≠ []) (filledToo : rights ≠ [])
    (same : String.intercalate " " lefts = String.intercalate " " rights) : lefts = rights := by
  have parts {names : List String} (named : ∀ text ∈ names, IsName text.toList) (some : names ≠ []) :
      (String.intercalate " " names).toList.splitOn ' ' = names.map String.toList := by
    rw [String.toList_intercalate]
    refine List.splitOn_intercalate ' ' (fun part member inside => ?_) (by simpa using some)
    obtain ⟨name, listed, rfl⟩ := List.mem_map.mp member
    have space := (named name listed).all ' ' inside
    contradiction
  have both : lefts.map String.toList = rights.map String.toList := by
    rw [← parts named filled, ← parts namedToo filledToo, same]
  exact (List.map_injective_iff.mpr fun _ _ => String.toList_inj.mp) both

end Text

namespace Payload

/-- The name of a method tells whether it is that of the class itself. -/
theorem method_inj {isPrivate isPrivateToo isSingleton isSingletonToo : Bool} {text other : String}
    (named : IsName text.toList) (namedToo : IsName other.toList)
    (same : (method isPrivate isSingleton text).words =
      (method isPrivateToo isSingletonToo other).words) :
    method isPrivate isSingleton text = method isPrivateToo isSingletonToo other := by
  have point {name whole : String} (named : IsName whole.toList) : "self." ++ name ≠ whole := by
    rintro rfl
    have inside := named.all '.' (by rw [String.toList_append]; exact List.mem_append_left _ (by decide))
    contradiction
  have last : (if isSingleton then "self." else "") ++ text =
      (if isSingletonToo then "self." else "") ++ other := by
    have ends := congrArg List.getLast? same
    simpa [words] using ends
  have flag : isPrivate = isPrivateToo := by
    have lengths := congrArg List.length same
    cases isPrivate <;> cases isPrivateToo <;> first | rfl | simp [words] at lengths
  rw [flag]
  cases isSingleton <;> cases isSingletonToo
  · rw [show text = other by simpa using last]
  · exact absurd (by simpa using last.symm) (point named)
  · exact absurd (by simpa using last) (point namedToo)
  · rw [show text = other by simpa using last]

/-- The name of a type tells whether it has a mark. -/
theorem type_inj {text other : Option String} {isNilable isNilableToo : Bool}
    (named : (type text isNilable).IsNamed) (namedToo : (type other isNilableToo).IsNamed)
    (same : (type text isNilable).words = (type other isNilableToo).words) :
    type text isNilable = type other isNilableToo := by
  have unmarked {text : Option String} {isNilable : Bool} (named : (type text isNilable).IsNamed) :
      (text.getD "nil").toList.getLast? ≠ some '?' := by
    cases text with
    | none => decide
    | some text => exact named.2.2
  have whole := List.singleton_inj.mp same
  have marked {name marked : String} (plain : marked.toList.getLast? ≠ some '?') :
      name ++ "?" ≠ marked := by
    rintro rfl
    exact plain (by simp)
  have both : text.getD "nil" = other.getD "nil" ∧ isNilable = isNilableToo := by
    cases isNilable <;> cases isNilableToo
    · exact ⟨by simpa using whole, rfl⟩
    · exact absurd (by simpa using whole.symm) (marked (unmarked named))
    · exact absurd (by simpa using whole) (marked (unmarked namedToo))
    · exact ⟨by simpa using whole, rfl⟩
  obtain ⟨names, rfl⟩ := both
  cases text with
  | none =>
    cases other with
    | none => rfl
    | some other => exact absurd names.symm namedToo.2.1
  | some text =>
    cases other with
    | none => exact absurd names named.2.1
    | some other => rw [show text = other from names]

/-- A version is told by its text. -/
theorem version_inj {major minor other more : Nat}
    (same : (version major minor).words = (version other more).words) :
    version major minor = version other more := by
  have texts : Nat.toDigits 10 major ++ '.' :: Nat.toDigits 10 minor =
      Nat.toDigits 10 other ++ '.' :: Nat.toDigits 10 more := by
    have whole := congrArg String.toList (List.singleton_inj.mp same)
    simpa [toString, Nat.toList_repr] using whole
  have digits (number : Nat) : ∀ char ∈ Nat.toDigits 10 number, char.isDigit = true :=
    fun _ => Nat.isDigit_of_mem_toDigits (by decide) (by decide)
  obtain ⟨majors, minors⟩ := run_inj (digits major) (digits other) (stops_cons rfl _)
    (stops_cons rfl _) texts
  rw [toDigits_inj (by decide) (by decide) majors,
    toDigits_inj (by decide) (by decide) (List.cons.inj minors).2]

/-- Names between bars are told by their text. -/
theorem bars_inj {texts others : List String} (named : (bars texts).IsNamed)
    (namedToo : (bars others).IsNamed) (same : (bars texts).words = (bars others).words) :
    texts = others := by
  rw [words, words] at same
  split at same <;> split at same
  · next none noneToo => rw [none, noneToo]
  · contradiction
  · contradiction
  · next some someToo =>
    refine intercalate_inj named namedToo some someToo ?_
    have whole := List.singleton_inj.mp same
    simpa [String.append_right_inj, String.append_left_inj] using whole

/-- Words tell what is held, when floats are told by their texts. -/
theorem eq_of_words {left right : Payload} (form : left.ctorIdx = right.ctorIdx)
    (named : left.IsNamed) (namedToo : right.IsNamed)
    (floats : ∀ value other, left = float value → right = float other → value.text = other.text →
      value = other) (same : left.words = right.words) : left = right := by
  cases left <;> cases right <;> cases form
  case nothing.nothing => rfl
  case name.name => rw [List.singleton_inj.mp same]
  case method.method => exact method_inj named namedToo same
  case instanceVariable.instanceVariable =>
    rw [(String.append_right_inj _).mp (List.singleton_inj.mp same)]
  case classVariable.classVariable =>
    rw [(String.append_right_inj _).mp (List.singleton_inj.mp same)]
  case symbol.symbol => rw [(String.append_right_inj _).mp (List.singleton_inj.mp same)]
  case string.string text other =>
    have quoted : (quote text).toList ++ [] = (quote other).toList ++ [] := by
      rw [List.singleton_inj.mp same]
    rw [(quote_inj quoted).1]
  case integer.integer value other =>
    have digits : Nat.toDigits 10 value = Nat.toDigits 10 other := by
      rw [← Nat.toList_repr, ← Nat.toList_repr]
      exact congrArg String.toList (List.singleton_inj.mp same)
    rw [toDigits_inj (by decide) (by decide) digits]
  case float.float value other => rw [floats value other rfl rfl (List.singleton_inj.mp same)]
  case type.type => exact type_inj named namedToo same
  case names.names => exact congrArg names same
  case bars.bars => rw [bars_inj named namedToo same]
  case filter.filter text other =>
    cases text <;> cases other
    · rfl
    · contradiction
    · contradiction
    · rw [List.singleton_inj.mp same]
  case version.version => exact version_inj same
  case binary.binary => rw [BinaryOp.symbol_injective (List.singleton_inj.mp same)]
  case unary.unary op other =>
    cases op <;> cases other <;> first | rfl | exact absurd same (by decide)
  case compound.compound op other =>
    cases op <;> cases other <;> first | rfl | exact absurd same (by decide)

/-- Whether the words are told apart by the spaces between them. -/
def isSpaced : Payload → Bool
  | string _ | bars _ => false
  | _ => true

/-- The words of most of what nodes hold are words. -/
theorem isWord_words {payload : Payload} (named : payload.IsNamed) (plain : payload.isSpaced = true) :
    ∀ word ∈ payload.words, IsWord isWordMark word.toList := by
  cases payload
  case string => contradiction
  case bars => contradiction
  case nothing => exact List.forall_mem_nil _
  case name => exact List.forall_mem_singleton.mpr named.isAtom.isWord
  case method isPrivate isSingleton text =>
    refine List.forall_mem_append.mpr ⟨?_, List.forall_mem_singleton.mpr ?_⟩
    · cases isPrivate
      · exact List.forall_mem_nil _
      · exact List.forall_mem_singleton.mpr (IsAtom.isWord (by decide))
    · rw [String.toList_append]
      refine (IsAtom.append ?_ (IsName.isAtom named)).isWord
      cases isSingleton <;> exact List.all_eq_true.mp (by decide)
  case instanceVariable text =>
    refine List.forall_mem_singleton.mpr ?_
    rw [String.toList_append]
    exact (IsAtom.append (List.all_eq_true.mp (by decide)) (IsName.isAtom named)).isWord
  case classVariable text =>
    refine List.forall_mem_singleton.mpr ?_
    rw [String.toList_append]
    exact (IsAtom.append (List.all_eq_true.mp (by decide)) (IsName.isAtom named)).isWord
  case symbol text =>
    refine List.forall_mem_singleton.mpr ?_
    rw [String.toList_append]
    exact (IsName.isAtom named).isWord_cons rfl
  case integer value =>
    refine List.forall_mem_singleton.mpr ?_
    rw [show toString value = value.repr from rfl, Nat.toList_repr]
    exact (isAtom_toDigits value).isWord
  case float value => exact List.forall_mem_singleton.mpr value.isAtom_text.isWord
  case type text isNilable =>
    refine List.forall_mem_singleton.mpr ?_
    rw [String.toList_append]
    refine (IsAtom.concat ?_ ?_).isWord
    · cases text with
      | none => decide
      | some text => exact IsName.isAtom named.1
    · cases isNilable <;> exact List.all_eq_true.mp (by decide)
  case names texts => exact fun word member => (IsName.isAtom (named word member)).isWord
  case filter text =>
    intro word member
    exact (IsName.isAtom (named word (Option.mem_toList.mp member))).isWord
  case version major minor =>
    refine List.forall_mem_singleton.mpr ?_
    have whole : (s!"{major}.{minor}").toList =
        Nat.toDigits 10 major ++ (['.'] ++ Nat.toDigits 10 minor) := by
      simp [toString, Nat.toList_repr]
    rw [whole]
    exact ((isAtom_toDigits major).concat
      (IsAtom.append (List.all_eq_true.mp (by decide)) (isAtom_toDigits minor)).all).isWord
  case binary op =>
    refine List.forall_mem_singleton.mpr (IsAtom.isWord ?_)
    cases op <;> decide
  case unary op =>
    refine List.forall_mem_singleton.mpr (IsAtom.isWord ?_)
    cases op <;> decide
  case compound op =>
    refine List.forall_mem_singleton.mpr (IsAtom.isWord ?_)
    cases op <;> decide

end Payload

namespace Text

/-- What can follow what a node holds: the end of the node, or a field with its label. -/
inductive EndsHead : List Char → Prop
  /-- The end of the node. -/
  | close (rest : List Char) : EndsHead (')' :: rest)
  /-- A field. -/
  | field {label : List Char} (all : ∀ char ∈ label, NodeKind.isLabelChar char = true)
    (rest : List Char) : EndsHead (' ' :: (label ++ ':' :: ' ' :: rest))

/-- A character of a label may stand in a word. -/
theorem isWordMark_of_isLabelChar {char : Char} (isLabel : NodeKind.isLabelChar char = true) :
    isWordMark char = true := by
  simp only [isWordMark, Bool.and_eq_true, bne_iff_ne]
  refine ⟨⟨?_, ?_⟩, ?_⟩ <;> rintro rfl <;> contradiction

variable {text : List Char}

/-- What follows what a node holds can follow words. -/
theorem EndsHead.endsWords (ends : EndsHead text) : EndsWords isWordMark text := by
  cases ends with
  | close rest => exact .mark rfl (by decide)
  | field all rest => exact .label fun char member => isWordMark_of_isLabelChar (all char member)

/-- A bar does not follow what a node holds. -/
theorem EndsHead.ne_bar (ends : EndsHead text) (rest : List Char) : text ≠ ' ' :: '|' :: rest := by
  cases ends with
  | close => exact fun same => absurd (List.cons.inj same).1 (by decide)
  | @field label all more =>
    intro same
    cases label with
    | nil => exact absurd (List.cons.inj (List.cons.inj same).2).1 (by decide)
    | cons char label =>
      obtain rfl := (List.cons.inj (List.cons.inj same).2).1
      exact absurd (all '|' List.mem_cons_self) (by decide)

end Text

namespace Payload

variable {rest more : List Char}

/-- Names between bars are told apart from what follows. -/
theorem bars_append_inj {texts others : List String} (named : (bars texts).IsNamed)
    (namedToo : (bars others).IsNamed) (ends : EndsHead rest) (endsToo : EndsHead more)
    (same : spaced ((bars texts).words.map String.toList) ++ rest =
      spaced ((bars others).words.map String.toList) ++ more) :
    (bars texts).words = (bars others).words ∧ rest = more := by
  have shown {texts : List String} (some : texts ≠ []) (after : List Char) :
      spaced ((bars texts).words.map String.toList) ++ after =
        ' ' :: '|' :: ((String.intercalate " " texts).toList ++ '|' :: after) := by
    simp [words, some, spaced]
  have noBar {texts : List String} (named : (bars texts).IsNamed) :
      ∀ char ∈ (String.intercalate " " texts).toList, (char != '|') = true := by
    intro char member
    rw [String.toList_intercalate] at member
    rcases eq_or_mem_of_mem_intercalate member with rfl | ⟨part, listed, inside⟩
    · rfl
    · obtain ⟨text, isText, rfl⟩ := List.mem_map.mp listed
      have allowed := (named text isText).all char inside
      exact bne_iff_ne.mpr (by rintro rfl; contradiction)
  by_cases empty : texts = [] <;> by_cases emptyToo : others = []
  · subst empty emptyToo
    exact ⟨rfl, same⟩
  · subst empty
    rw [shown emptyToo] at same
    exact absurd same (ends.ne_bar _)
  · subst emptyToo
    rw [shown empty] at same
    exact absurd same.symm (endsToo.ne_bar _)
  · rw [shown empty, shown emptyToo] at same
    obtain ⟨inner, tails⟩ := run_inj (noBar named) (noBar namedToo) (stops_cons rfl _)
      (stops_cons rfl _) (List.cons.inj (List.cons.inj same).2).2
    refine ⟨?_, (List.cons.inj tails).2⟩
    simp [words, empty, emptyToo, String.toList_inj.mp inner]

/-- The words of what two nodes of one form hold are told apart from what follows them. -/
theorem words_inj {left right : Payload} (form : left.ctorIdx = right.ctorIdx)
    (named : left.IsNamed) (namedToo : right.IsNamed) (ends : EndsHead rest) (endsToo : EndsHead more)
    (same : spaced (left.words.map String.toList) ++ rest =
      spaced (right.words.map String.toList) ++ more) :
    left.words = right.words ∧ rest = more := by
  by_cases plain : left.isSpaced = true
  · have plainToo : right.isSpaced = true := by
      cases left <;> cases right <;> cases form <;> first | rfl | contradiction
    have isWord {payload : Payload} (named : payload.IsNamed) (plain : payload.isSpaced = true) :
        ∀ word ∈ payload.words.map String.toList, IsWord isWordMark word :=
      List.forall_mem_map.mpr (isWord_words named plain)
    obtain ⟨texts, tails⟩ := spaced_inj rfl rfl (isWord named plain) (isWord namedToo plainToo)
      ends.endsWords endsToo.endsWords same
    exact ⟨(List.map_injective_iff.mpr fun _ _ => String.toList_inj.mp) texts, tails⟩
  · cases left <;> cases right <;> cases form <;> try contradiction
    · rename_i text other
      have quoted : (quote text).toList ++ rest = (quote other).toList ++ more := by
        simpa [spaced, words] using same
      obtain ⟨rfl, tails⟩ := quote_inj quoted
      exact ⟨rfl, tails⟩
    · exact bars_append_inj named namedToo ends endsToo same

end Payload

end Vibescript
