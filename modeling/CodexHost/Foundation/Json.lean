import CodexHost.Foundation.JsonString
import CodexHost.Foundation.OrderedMap

/-!
# JSON values and their texts

`JSON.stringify` without indentation and `JSON.parse`. How numbers are written and read is a
parameter. Reading a text that was written for a value gives back the value, whatever follows the
text: the induction is on the value, and the fuel of the reader covers the length of the text.
-/
namespace CodexHost.Foundation

/-- A JSON value over some numbers. -/
inductive Json (N : Type) where
  | null
  | bool (value : Bool)
  | number (value : N)
  | string (value : Utf16)
  | array (items : List (Json N))
  | object (members : List (Utf16 × Json N))

/-- How numbers are written and read. -/
structure NumberFormat (N : Type) where
  write : N → List Char
  read : List Char → Option N

namespace Json
variable {N : Type} (format : NumberFormat N)

/-- The characters of number literals. -/
def isNumberChar (c : Char) : Bool :=
  c.isDigit || c = '-' || c = '+' || c = '.' || c = 'e' || c = 'E'

def isSpace (c : Char) : Bool := c = ' ' || c = '\t' || c = '\n' || c = '\r'

def skipSpace (text : List Char) : List Char := text.dropWhile isSpace

/-- A string with its quotes. -/
def quoted (value : Utf16) : List Char := '"' :: (JsonText.stringText value ++ ['"'])

mutual

/-- `JSON.stringify` -/
def write : Json N → List Char
  | .null => "null".toList
  | .bool true => "true".toList
  | .bool false => "false".toList
  | .number value => format.write value
  | .string value => quoted value
  | .array [] => ['[', ']']
  | .array (item :: items) => '[' :: (write item ++ writeItems items)
  | .object [] => ['{', '}']
  | .object ((key, value) :: members) =>
    '{' :: (quoted key ++ ':' :: (write value ++ writeMembers members))

/-- The items after the first, and the bracket. -/
def writeItems : List (Json N) → List Char
  | [] => [']']
  | item :: items => ',' :: (write item ++ writeItems items)

/-- The members after the first, and the brace. -/
def writeMembers : List (Utf16 × Json N) → List Char
  | [] => ['}']
  | (key, value) :: members => ',' :: (quoted key ++ ':' :: (write value ++ writeMembers members))

end

/-- The text after this prefix. -/
def after (expected : List Char) (text : List Char) : Option (List Char) :=
  if expected.isPrefixOf text then some (text.drop expected.length) else none

def readNumber (text : List Char) : Option (Json N × List Char) :=
  (format.read (text.takeWhile isNumberChar)).map fun value =>
    (.number value, text.dropWhile isNumberChar)

/-- The object of members as read: a repeated key keeps its place and takes the later value. -/
def objectOf (members : List (Utf16 × Json N)) : Json N :=
  .object (OrderedMap.empty.setAll members).entries

mutual

/-- Reads the value at the start of a text. -/
def readValue : Nat → List Char → Option (Json N × List Char)
  | 0, _ => none
  | fuel + 1, text =>
    match skipSpace text with
    | [] => none
    | c :: rest =>
      if c = '"' then (JsonText.readString rest).map fun read => (.string read.1, read.2)
      else if c = '[' then
        match after [']'] (skipSpace rest) with
        | some rest => some (.array [], rest)
        | none => (readItems fuel rest).map fun read => (.array read.1, read.2)
      else if c = '{' then
        match after ['}'] (skipSpace rest) with
        | some rest => some (.object [], rest)
        | none => (readMembers fuel rest).map fun read => (objectOf read.1, read.2)
      else if c = 'n' then (after "ull".toList rest).map fun rest => (.null, rest)
      else if c = 't' then (after "rue".toList rest).map fun rest => (.bool true, rest)
      else if c = 'f' then (after "alse".toList rest).map fun rest => (.bool false, rest)
      else readNumber format (c :: rest)

/-- Reads items up to the bracket. -/
def readItems : Nat → List Char → Option (List (Json N) × List Char)
  | 0, _ => none
  | fuel + 1, text => do
    let (item, rest) ← readValue fuel text
    match after [']'] (skipSpace rest) with
    | some rest => return ([item], rest)
    | none =>
      let (items, rest) ← readItems fuel (← after [','] (skipSpace rest))
      return (item :: items, rest)

/-- Reads members up to the brace. -/
def readMembers : Nat → List Char → Option (List (Utf16 × Json N) × List Char)
  | 0, _ => none
  | fuel + 1, text => do
    let (key, rest) ← JsonText.readString (← after ['"'] (skipSpace text))
    let (value, rest) ← readValue fuel (← after [':'] (skipSpace rest))
    match after ['}'] (skipSpace rest) with
    | some rest => return ([(key, value)], rest)
    | none =>
      let (members, rest) ← readMembers fuel (← after [','] (skipSpace rest))
      return ((key, value) :: members, rest)

end

/-- `JSON.parse` -/
def parse (text : List Char) : Option (Json N) :=
  match readValue format (text.length + 1) text with
  | none => none
  | some (value, rest) => if skipSpace rest = [] then some value else none

/-- The number reads back from its text. -/
def Faithful (value : N) : Prop :=
  format.read (format.write value) = some value ∧ format.write value ≠ [] ∧
    ∀ c ∈ format.write value, isNumberChar c = true

mutual

/-- The numbers of the value read back, and no object repeats a key. -/
def Regular : Json N → Prop
  | .number value => Faithful format value
  | .array items => RegularItems items
  | .object members => (members.map Prod.fst).Nodup ∧ RegularMembers members
  | _ => True

def RegularItems : List (Json N) → Prop
  | [] => True
  | item :: items => Regular item ∧ RegularItems items

def RegularMembers : List (Utf16 × Json N) → Prop
  | [] => True
  | (_, value) :: members => Regular value ∧ RegularMembers members

end

/-- What follows a number is not part of it. -/
def Stops (rest : List Char) : Prop := ∀ c ∈ rest.head?, isNumberChar c = false

/-- The text of the value reads back as the value. -/
def ReadsBack (value : Json N) : Prop :=
  ∀ fuel rest, (write format value).length ≤ fuel → Stops rest →
    readValue format fuel (write format value ++ rest) = some (value, rest)

theorem skipSpace_cons {c : Char} (rest : List Char) (visible : isSpace c = false) :
    skipSpace (c :: rest) = c :: rest :=
  List.dropWhile_cons_of_neg (by simp [visible])

theorem after_cons (c : Char) (rest : List Char) : after [c] (c :: rest) = some rest := by
  simp [after]

theorem after_cons_ne {c d : Char} (rest : List Char) (apart : c ≠ d) : after [c] (d :: rest) = none := by
  simp [after, apart]

theorem objectOf_distinct {members : List (Utf16 × Json N)}
    (distinct : (members.map Prod.fst).Nodup) : objectOf members = .object members := by
  rw [objectOf, OrderedMap.setAll_entries members OrderedMap.empty (by simpa [OrderedMap.empty])]
  rfl

theorem number_ne {c d : Char} (numeric : isNumberChar c = true) (other : isNumberChar d = false) :
    c ≠ d := by
  rintro rfl
  rw [numeric] at other
  cases other

theorem number_visible {c : Char} (numeric : isNumberChar c = true) : isSpace c = false := by
  simp only [isSpace, Bool.or_eq_false_iff, decide_eq_false_iff_not]
  exact ⟨⟨⟨number_ne numeric (by decide), number_ne numeric (by decide)⟩,
    number_ne numeric (by decide)⟩, number_ne numeric (by decide)⟩

theorem takeWhile_append_stop {α : Type} {keep : α → Bool} {front rest : List α}
    (all : ∀ a ∈ front, keep a = true) (stops : ∀ a ∈ rest.head?, keep a = false) :
    (front ++ rest).takeWhile keep = front ∧ (front ++ rest).dropWhile keep = rest := by
  induction front with
  | nil =>
    cases rest with
    | nil => exact ⟨rfl, rfl⟩
    | cons a rest =>
      have stop : keep a = false := stops a rfl
      simp [stop]
  | cons a front ih =>
    have here := all a List.mem_cons_self
    obtain ⟨taken, left⟩ := ih fun b member => all b (List.mem_cons_of_mem a member)
    simp [here, taken, left]

theorem readsBack_number {value : N} (faithful : Faithful format value) :
    ReadsBack format (.number value) := by
  intro fuel rest enough stops
  obtain ⟨reads, nonempty, numeric⟩ := faithful
  obtain ⟨taken, left⟩ := takeWhile_append_stop numeric stops
  obtain ⟨c, digits, token⟩ := List.exists_cons_of_ne_nil nonempty
  have first : isNumberChar c = true := numeric c (by rw [token]; exact List.mem_cons_self)
  simp only [write] at enough ⊢
  obtain ⟨fuel, rfl⟩ : ∃ n, fuel = n + 1 := ⟨fuel - 1, by
    rw [token, List.length_cons] at enough
    omega⟩
  have text : format.write value ++ rest = c :: (digits ++ rest) := by rw [token, List.cons_append]
  rw [readValue, text, skipSpace_cons _ (number_visible first)]
  simp only [number_ne first (show isNumberChar '"' = false by decide),
    number_ne first (show isNumberChar '[' = false by decide),
    number_ne first (show isNumberChar '{' = false by decide),
    number_ne first (show isNumberChar 'n' = false by decide),
    number_ne first (show isNumberChar 't' = false by decide),
    number_ne first (show isNumberChar 'f' = false by decide), if_false]
  rw [← text, readNumber, taken, left, reads]
  rfl

theorem readString_quoted (value : Utf16) (rest : List Char) :
    JsonText.readString (JsonText.stringText value ++ ['"'] ++ rest) = some (value, rest) := by
  rw [List.append_assoc, List.singleton_append, JsonText.readString_stringText]

theorem readsBack_string (value : Utf16) : ReadsBack format (.string value) := by
  intro fuel rest enough _
  simp only [write, quoted, List.length_cons] at enough
  obtain ⟨fuel, rfl⟩ : ∃ n, fuel = n + 1 := ⟨fuel - 1, by omega⟩
  simp only [write, quoted, List.cons_append]
  rw [readValue, skipSpace_cons _ (by decide)]
  simp only [if_true, readString_quoted, Option.map_some]

theorem readsBack_word {value : Json N} (c : Char) (letters : List Char)
    (text : write format value = c :: letters)
    (reads : ∀ fuel rest, readValue format (fuel + 1) (c :: letters ++ rest) = some (value, rest)) :
    ReadsBack format value := by
  intro fuel rest enough _
  rw [text, List.length_cons] at enough
  obtain ⟨fuel, rfl⟩ : ∃ n, fuel = n + 1 := ⟨fuel - 1, by omega⟩
  rw [text]
  exact reads fuel rest

/-- The text of a value starts with a visible character that closes no list. -/
theorem write_head {value : Json N} (regular : Regular format value) :
    ∃ c text, write format value = c :: text ∧ isSpace c = false ∧ c ≠ ']' := by
  cases value with
  | null => exact ⟨'n', _, rfl, by decide, by decide⟩
  | bool value => cases value <;> exact ⟨_, _, rfl, by decide, by decide⟩
  | number value =>
    obtain ⟨-, nonempty, numeric⟩ := regular
    obtain ⟨c, digits, token⟩ := List.exists_cons_of_ne_nil nonempty
    have first : isNumberChar c = true := numeric c (by rw [token]; exact List.mem_cons_self)
    exact ⟨c, digits, token, number_visible first, number_ne first (by decide)⟩
  | string value => exact ⟨'"', _, rfl, by decide, by decide⟩
  | array items => cases items <;> exact ⟨'[', _, rfl, by decide, by decide⟩
  | object members =>
    cases members with
    | nil => exact ⟨'{', _, rfl, by decide, by decide⟩
    | cons member members => exact ⟨'{', _, rfl, by decide, by decide⟩

theorem stops_cons {c : Char} (rest : List Char) (other : isNumberChar c = false) : Stops (c :: rest) := by
  rintro _ ⟨⟩
  exact other

/-- Items, if any, read back up to the bracket after them. -/
def ItemsBack (items : List (Json N)) : Prop :=
  items ≠ [] → ∀ fuel rest, (writeItems format items).length ≤ fuel + 1 →
    readItems format fuel ((writeItems format items).tail ++ rest) = some (items, rest)

theorem itemsBack_cons {item : Json N} (here : ReadsBack format item) {items : List (Json N)}
    (others : ItemsBack format items) : ItemsBack format (item :: items) := by
  intro _ fuel rest enough
  simp only [writeItems, List.length_cons, List.length_append] at enough
  have closed : 1 ≤ (writeItems format items).length := by
    cases items <;> simp [writeItems]
  obtain ⟨fuel, rfl⟩ : ∃ n, fuel = n + 1 := ⟨fuel - 1, by omega⟩
  simp only [writeItems, List.tail_cons]
  rw [readItems, List.append_assoc]
  cases items with
  | nil =>
    have first := here fuel (']' :: rest) (by omega) (stops_cons _ (by decide))
    simp only [writeItems, List.singleton_append]
    rw [first]
    rfl
  | cons item' items =>
    have first := here fuel (',' :: (write format item' ++ writeItems format items ++ rest)) (by omega)
      (stops_cons _ (by decide))
    have next := others (List.cons_ne_nil _ _) fuel rest (by omega)
    simp only [writeItems, List.tail_cons] at next
    simp only [writeItems, List.cons_append]
    rw [first]
    simp only [Option.bind_eq_bind, Option.bind_some, skipSpace_cons _ (show isSpace ',' = false by decide),
      after_cons_ne _ (show ']' ≠ ',' by decide), after_cons, next]
    rfl

theorem readsBack_array {items : List (Json N)} (regular : RegularItems format items)
    (back : ItemsBack format items) : ReadsBack format (.array items) := by
  intro fuel rest enough _
  cases items with
  | nil =>
    obtain ⟨fuel, rfl⟩ : ∃ n, fuel = n + 1 := ⟨fuel - 1, by
      simp only [write, List.length_cons] at enough
      omega⟩
    simp only [write, List.cons_append, List.nil_append]
    rw [readValue, skipSpace_cons _ (by decide)]
    simp only [show ('[' : Char) ≠ '"' by decide, if_false, if_true,
      skipSpace_cons _ (show isSpace ']' = false by decide), after_cons]
  | cons item items =>
    simp only [write, List.length_cons, List.length_append] at enough
    obtain ⟨fuel, rfl⟩ : ∃ n, fuel = n + 1 := ⟨fuel - 1, by omega⟩
    obtain ⟨c, text, head, visible, notClosed⟩ := write_head format regular.1
    have inner := back (List.cons_ne_nil _ _) fuel rest (by
      simp only [writeItems, List.length_cons, List.length_append]
      omega)
    simp only [writeItems, List.tail_cons, head, List.cons_append] at inner
    simp only [write, head, List.cons_append]
    rw [readValue, skipSpace_cons _ (by decide)]
    simp only [show ('[' : Char) ≠ '"' by decide, if_false, if_true, skipSpace_cons _ visible,
      after_cons_ne _ notClosed.symm, inner, Option.map_some]

/-- Members, if any, read back up to the brace after them. -/
def MembersBack (members : List (Utf16 × Json N)) : Prop :=
  members ≠ [] → ∀ fuel rest, (writeMembers format members).length ≤ fuel + 1 →
    readMembers format fuel ((writeMembers format members).tail ++ rest) = some (members, rest)

theorem membersBack_cons (key : Utf16) {value : Json N} (here : ReadsBack format value)
    {members : List (Utf16 × Json N)} (others : MembersBack format members) :
    MembersBack format ((key, value) :: members) := by
  intro _ fuel rest enough
  simp only [writeMembers, List.length_cons, List.length_append] at enough
  obtain ⟨fuel, rfl⟩ : ∃ n, fuel = n + 1 := ⟨fuel - 1, by omega⟩
  have opened : ∀ text, quoted key ++ text = '"' :: (JsonText.stringText key ++ '"' :: text) := by
    simp [quoted]
  simp only [writeMembers, List.tail_cons, List.append_assoc, List.cons_append, opened]
  rw [readMembers]
  simp only [skipSpace_cons _ (show isSpace '"' = false by decide), after_cons,
    JsonText.readString_stringText, skipSpace_cons _ (show isSpace ':' = false by decide),
    Option.bind_eq_bind, Option.bind_some]
  cases members with
  | nil =>
    have first := here fuel ('}' :: rest) (by omega) (stops_cons _ (by decide))
    simp only [writeMembers, List.cons_append, List.nil_append]
    rw [first]
    rfl
  | cons member members =>
    obtain ⟨key', value'⟩ := member
    have first := here fuel (',' :: (quoted key' ++
      ':' :: (write format value' ++ writeMembers format members) ++ rest)) (by omega)
      (stops_cons _ (by decide))
    have next := others (List.cons_ne_nil _ _) fuel rest (by omega)
    simp only [writeMembers, List.tail_cons] at next
    simp only [writeMembers, List.cons_append]
    rw [first]
    simp only [Option.bind_some, skipSpace_cons _ (show isSpace ',' = false by decide),
      after_cons_ne _ (show '}' ≠ ',' by decide), after_cons, next]
    rfl

theorem readsBack_object {members : List (Utf16 × Json N)}
    (distinct : (members.map Prod.fst).Nodup) (back : MembersBack format members) :
    ReadsBack format (.object members) := by
  intro fuel rest enough _
  cases members with
  | nil =>
    obtain ⟨fuel, rfl⟩ : ∃ n, fuel = n + 1 := ⟨fuel - 1, by
      simp only [write, List.length_cons] at enough
      omega⟩
    simp only [write, List.cons_append, List.nil_append]
    rw [readValue, skipSpace_cons _ (by decide)]
    simp only [show ('{' : Char) ≠ '"' by decide, show ('{' : Char) ≠ '[' by decide, if_false, if_true,
      skipSpace_cons _ (show isSpace '}' = false by decide), after_cons]
  | cons member members =>
    simp only [write, List.length_cons, List.length_append] at enough
    obtain ⟨fuel, rfl⟩ : ∃ n, fuel = n + 1 := ⟨fuel - 1, by omega⟩
    have inner := back (List.cons_ne_nil _ _) fuel rest (by
      simp only [writeMembers, List.length_cons, List.length_append]
      omega)
    simp only [writeMembers, List.tail_cons, quoted, List.cons_append] at inner
    simp only [write, quoted, List.cons_append]
    rw [readValue, skipSpace_cons _ (by decide)]
    simp only [show ('{' : Char) ≠ '"' by decide, show ('{' : Char) ≠ '[' by decide, if_false, if_true,
      skipSpace_cons _ (show isSpace '"' = false by decide),
      after_cons_ne _ (show '}' ≠ '"' by decide), inner, Option.map_some,
      objectOf_distinct distinct]

mutual

theorem readsBack : ∀ {value : Json N}, Regular format value → ReadsBack format value
  | .null, _ => readsBack_word format 'n' "ull".toList rfl fun _ _ => rfl
  | .bool true, _ => readsBack_word format 't' "rue".toList rfl fun _ _ => rfl
  | .bool false, _ => readsBack_word format 'f' "alse".toList rfl fun _ _ => rfl
  | .number _, regular => readsBack_number format regular
  | .string value, _ => readsBack_string format value
  | .array _, regular => readsBack_array format regular (itemsBack regular)
  | .object _, regular => readsBack_object format regular.1 (membersBack regular.2)

theorem itemsBack : ∀ {items : List (Json N)}, RegularItems format items → ItemsBack format items
  | [], _ => fun none => absurd rfl none
  | _ :: _, regular => itemsBack_cons format (readsBack regular.1) (itemsBack regular.2)

theorem membersBack : ∀ {members : List (Utf16 × Json N)}, RegularMembers format members →
    MembersBack format members
  | [], _ => fun none => absurd rfl none
  | (key, _) :: _, regular => membersBack_cons format key (readsBack regular.1) (membersBack regular.2)

end

/-- `JSON.parse` of `JSON.stringify` is the value. -/
theorem parse_write {value : Json N} (regular : Regular format value) :
    parse format (write format value) = some value := by
  have back := readsBack format regular ((write format value).length + 1) [] (by omega) (by rintro _ ⟨⟩)
  rw [List.append_nil] at back
  rw [parse, back]
  rfl

section Printable
open JsonText

theorem control_not_number : ∀ code, code < 0x20 → isNumberChar (Char.ofNat code) = false := by decide

theorem number_printable {c : Char} (numeric : isNumberChar c = true) : 0x20 ≤ c.toNat := by
  by_contra control
  have other := control_not_number c.toNat (by omega)
  rw [Char.ofNat_toNat, numeric] at other
  cases other

theorem printable_quoted (value : Utf16) : Printable (quoted value) := by
  simp only [quoted, printable_cons, printable_append]
  exact ⟨by decide, printable_stringText value, by decide, printable_nil⟩

mutual

/-- The text of a value is one line. -/
theorem printable_write : ∀ {value : Json N}, Regular format value → Printable (write format value)
  | .null, _ => by rw [write]; exact printable_word (by decide)
  | .bool true, _ => by rw [write]; exact printable_word (by decide)
  | .bool false, _ => by rw [write]; exact printable_word (by decide)
  | .number _, regular => fun c member => number_printable (regular.2.2 c member)
  | .string value, _ => printable_quoted value
  | .array [], _ => by rw [write]; exact printable_word (by decide)
  | .array (_ :: _), regular => by
    simp only [write, printable_cons, printable_append]
    exact ⟨by decide, printable_write regular.1, printable_writeItems regular.2⟩
  | .object [], _ => by rw [write]; exact printable_word (by decide)
  | .object ((key, _) :: _), regular => by
    simp only [write, printable_cons, printable_append]
    exact ⟨by decide, printable_quoted key, by decide, printable_write regular.2.1,
      printable_writeMembers regular.2.2⟩

theorem printable_writeItems : ∀ {items : List (Json N)}, RegularItems format items →
    Printable (writeItems format items)
  | [], _ => by rw [writeItems]; exact printable_word (by decide)
  | _ :: _, regular => by
    simp only [writeItems, printable_cons, printable_append]
    exact ⟨by decide, printable_write regular.1, printable_writeItems regular.2⟩

theorem printable_writeMembers : ∀ {members : List (Utf16 × Json N)}, RegularMembers format members →
    Printable (writeMembers format members)
  | [], _ => by rw [writeMembers]; exact printable_word (by decide)
  | (key, _) :: _, regular => by
    simp only [writeMembers, printable_cons, printable_append]
    exact ⟨by decide, printable_quoted key, by decide, printable_write regular.1,
      printable_writeMembers regular.2⟩

end

end Printable

end Json

end CodexHost.Foundation
