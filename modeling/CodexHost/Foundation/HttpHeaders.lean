import CodexHost.Foundation.EcmaString
import CodexHost.Foundation.OrderedMap

/-!
# HTTP headers as Node reads them

`request.headers` of `node:http`: names in lower case, repeated fields joined with a comma and a space.
Some fields count only once, and `set-cookie` is a list. The last comma-separated value of a name is that
of its last field.
-/
namespace CodexHost.Foundation.HttpHeaders
open List

abbrev Text : Type := List Char

inductive HeaderValue where
  | text (value : Text)
  | many (values : List Text)
  deriving DecidableEq, Repr

abbrev Headers : Type := OrderedMap Text HeaderValue

def lowerName (name : Text) : Text := name.map Char.toLower

/-- The fields of which the first counts. -/
def singleFields : List Text := ["age", "authorization", "content-length", "content-type", "etag",
  "expires", "from", "host", "if-modified-since", "if-unmodified-since", "last-modified", "location",
  "max-forwards", "proxy-authorization", "referer", "retry-after", "server", "user-agent"].map (·.toList)

/-- A further field of a name. -/
def addValue (name : Text) (known : Option HeaderValue) (value : Text) : HeaderValue :=
  match known with
  | none => if name = "set-cookie".toList then .many [value] else .text value
  | some (.many values) => .many (values ++ [value])
  | some (.text first) =>
    if singleFields.contains name then .text first
    else .text (first ++ (if name = "cookie".toList then "; " else ", ").toList ++ value)

def addField (headers : Headers) (field : Text × Text) : Headers :=
  headers.set (lowerName field.1) (addValue (lowerName field.1) (headers.get? (lowerName field.1)) field.2)

/-- The headers of the fields as they were received. -/
def headersOf (fields : List (Text × Text)) : Headers := fields.foldl addField .empty

/-- The values of the fields with a name, in their order. -/
def valuesOf (fields : List (Text × Text)) (name : Text) : List Text :=
  (fields.filter fun field => lowerName field.1 = name).map Prod.snd

/-- `text.trim()` -/
def trim (text : Text) : Text :=
  (text.dropWhile EcmaString.isWhiteSpace).rdropWhile EcmaString.isWhiteSpace

/-- What follows the last comma. -/
def lastPart (text : Text) : Text := ((text.splitOn ',').getLast?).getD []

theorem get?_fold (fields : List (Text × Text)) (headers : Headers) (name : Text) :
    (fields.foldl addField headers).get? name =
      (valuesOf fields name).foldl (fun known value => some (addValue name known value))
        (headers.get? name) := by
  induction fields generalizing headers with
  | nil => rfl
  | cons field fields ih =>
    rw [foldl_cons, ih, addField, OrderedMap.get?_set]
    by_cases same : lowerName field.1 = name
    · simp [valuesOf, same]
    · simp [valuesOf, same, Ne.symm same]

/-- A name that is joined: not a cookie, not a list and not a field that counts once. -/
def Joined (name : Text) : Prop :=
  name ≠ "set-cookie".toList ∧ name ≠ "cookie".toList ∧ singleFields.contains name = false

instance (name : Text) : Decidable (Joined name) :=
  inferInstanceAs (Decidable (_ ∧ _ ∧ _))

theorem fold_text {name : Text} (joined : Joined name) (first : Text) (values : List Text) :
    values.foldl (fun known value => some (addValue name known value)) (some (.text first)) =
      some (.text (values.foldl (fun text value => text ++ ", ".toList ++ value) first)) := by
  induction values generalizing first with
  | nil => rfl
  | cons value values ih =>
    rw [foldl_cons, foldl_cons, addValue, joined.2.2, if_neg joined.2.1]
    exact ih _

theorem get?_headersOf {name : Text} (joined : Joined name) (fields : List (Text × Text)) :
    (headersOf fields).get? name =
      match valuesOf fields name with
      | [] => none
      | first :: values =>
        some (.text (values.foldl (fun text value => text ++ ", ".toList ++ value) first)) := by
  rw [headersOf, get?_fold, OrderedMap.get?_empty]
  cases valuesOf fields name with
  | nil => rfl
  | cons first values =>
    rw [foldl_cons, addValue, if_neg joined.1]
    exact fold_text joined first values

/-- Fields of other names do not matter. -/
theorem get?_headersOf_congr {fields others : List (Text × Text)} {name : Text}
    (same : valuesOf fields name = valuesOf others name) :
    (headersOf fields).get? name = (headersOf others).get? name := by
  rw [headersOf, headersOf, get?_fold, get?_fold, same]

theorem has_headersOf (fields : List (Text × Text)) (name : Text) :
    (headersOf fields).has name = true ↔ ∃ field ∈ fields, lowerName field.1 = name := by
  have start (known : Option HeaderValue) (values : List Text) :
      (values.foldl (fun known value => some (addValue name known value)) known).isSome =
        (known.isSome || !values.isEmpty) := by
    induction values generalizing known with
    | nil => simp
    | cons value values ih => simp [ih]
  rw [OrderedMap.has, headersOf, get?_fold, start]
  simp [valuesOf]

theorem lastPart_append (before after : Text) : lastPart (before ++ ',' :: after) = lastPart after := by
  have some : after.splitOn ',' ≠ [] := splitOn_ne_nil _ _
  rw [lastPart, splitOn_append_cons_self, getLast?_append_of_ne_nil _ some, lastPart]

theorem trim_space (text : Text) : trim (' ' :: text) = trim text := by
  rfl

/-- A space before a text changes its last part only at its start. -/
theorem trim_lastPart_space (text : Text) : trim (lastPart (' ' :: text)) = trim (lastPart text) := by
  have some : text.splitOn ',' ≠ [] := splitOn_ne_nil _ _
  rw [lastPart, lastPart, splitOn_cons_eq_if_modifyHead, if_neg (by decide)]
  cases parts : text.splitOn ',' with
  | nil => exact absurd parts some
  | cons part rest =>
    cases rest with
    | nil => exact trim_space part
    | cons second rest => rfl

/-- The last part of a joined header is the last part of its last field. -/
theorem trim_lastPart_fold (values : List Text) (first : Text) :
    trim (lastPart (values.foldl (fun text value => text ++ ", ".toList ++ value) first)) =
      trim (lastPart (values.getLast?.getD first)) := by
  induction values using List.reverseRecOn with
  | nil => rfl
  | append_singleton values value ih =>
    rw [foldl_append, foldl_cons, foldl_nil, append_assoc]
    have comma : ", ".toList ++ value = ',' :: ' ' :: value := rfl
    rw [comma, lastPart_append, trim_lastPart_space, getLast?_concat, Option.getD_some]

end CodexHost.Foundation.HttpHeaders
