import Mathlib

/-!
# Splitting a Windows command line

The documented rules of `CommandLineToArgvW` and the C runtime for the arguments after the program name.
They differ only in what a doubled quote inside quotes is, which is a parameter here.
-/
namespace CodexHost.Foundation.ArgumentSplitting

/-- A quote directly after a quote that could close: it opens again, or both are one quote character,
and the argument stays in quotes or leaves them. -/
inductive DoubledQuote where
  | reopens
  | isCharacter (staysQuoted : Bool)
  deriving DecidableEq, Repr

/-- Where a character stands: outside quotes, inside them, or directly after a quote that closed them. -/
inductive Place where
  | outside
  | inside
  | closed
  deriving DecidableEq, Repr

/-- The place after a character that is no quote. -/
def Place.next : Place → Place
  | .inside => .inside
  | _ => .outside

/-- The place after a quote that is not escaped, and the characters that it stands for. -/
def DoubledQuote.quote (rule : DoubledQuote) : Place → Place × List Char
  | .outside => (.inside, [])
  | .inside => (.closed, [])
  | .closed =>
    match rule with
    | .reopens => (.inside, [])
    | .isCharacter true => (.inside, ['"'])
    | .isCharacter false => (.outside, ['"'])

def isSeparator (character : Char) : Bool := character == ' ' || character == '\t'

def backslashes (count : Nat) : List Char := List.replicate count '\\'

/-- The arguments of the rest of a line after `slashes` backslashes, where `argument` is what is known of
an argument that has begun. -/
def split (rule : DoubledQuote) (place : Place) (slashes : Nat) (argument : Option (List Char)) :
    List Char → List (List Char)
  | [] => (argument.map fun text => text ++ backslashes slashes).toList
  | character :: line =>
    let text := argument.getD []
    if character = '\\' then split rule place.next (slashes + 1) (some text) line
    else if character = '"' then
      let written := text ++ backslashes (slashes / 2)
      if slashes % 2 = 1 then split rule place.next 0 (some (written ++ ['"'])) line
      else split rule (rule.quote place).1 0 (some (written ++ (rule.quote place).2)) line
    else if isSeparator character && place != .inside then
      (argument.map fun text => text ++ backslashes slashes).toList ++ split rule .outside 0 none line
    else split rule place.next 0 (some (text ++ backslashes slashes ++ [character])) line

/-- The arguments of a whole line. -/
def arguments (rule : DoubledQuote) (line : List Char) : List (List Char) := split rule .outside 0 none line

section Steps
variable (rule : DoubledQuote) (place : Place) (slashes : Nat) (argument : Option (List Char))
variable (line : List Char)

theorem split_backslash : split rule place slashes argument ('\\' :: line) =
    split rule place.next (slashes + 1) (some (argument.getD [])) line := by
  rw [split, if_pos rfl]

/-- After an odd number of backslashes a quote is a character. -/
theorem split_escaped (half : Nat) : split rule place (2 * half + 1) argument ('"' :: line) =
    split rule place.next 0 (some (argument.getD [] ++ backslashes half ++ ['"'])) line := by
  have odd : (2 * half + 1) % 2 = 1 := by omega
  have quotient : (2 * half + 1) / 2 = half := by omega
  rw [split, if_neg (by decide), if_pos rfl, if_pos odd, quotient]

/-- After an even number of backslashes a quote is a quote. -/
theorem split_quote (half : Nat) : split rule place (2 * half) argument ('"' :: line) =
    split rule (rule.quote place).1 0
      (some (argument.getD [] ++ backslashes half ++ (rule.quote place).2)) line := by
  have even : ¬ 2 * half % 2 = 1 := by omega
  have quotient : 2 * half / 2 = half := by omega
  rw [split, if_neg (by decide), if_pos rfl, if_neg even, quotient]

theorem split_separator {character : Char} (separates : isSeparator character = true)
    (unquoted : place ≠ .inside) :
    split rule place slashes argument (character :: line) =
      (argument.map fun text => text ++ backslashes slashes).toList ++ split rule .outside 0 none line := by
  have other : character ≠ '\\' ∧ character ≠ '"' := by
    constructor <;> rintro rfl <;> simp [isSeparator] at separates
  have ends : (isSeparator character && place != .inside) = true := by simp [separates, unquoted]
  rw [split, if_neg other.1, if_neg other.2, if_pos ends]

theorem split_character {character : Char} (backslash : character ≠ '\\') (quote : character ≠ '"')
    (within : place = .inside ∨ isSeparator character = false) :
    split rule place slashes argument (character :: line) =
      split rule place.next 0 (some (argument.getD [] ++ backslashes slashes ++ [character])) line := by
  have stays : ¬ (isSeparator character && place != .inside) = true := by
    rcases within with rfl | plain
    · simp
    · simp [plain]
  rw [split, if_neg backslash, if_neg quote, if_neg stays]

end Steps

theorem backslashes_add (count more : Nat) :
    backslashes (count + more) = backslashes count ++ backslashes more := by
  simp [backslashes, List.replicate_append_replicate]

/-- Backslashes in a row are counted. -/
theorem split_backslashes {rule : DoubledQuote} {place : Place} (steady : place.next = place)
    (count slashes : Nat) (text line : List Char) :
    split rule place slashes (some text) (backslashes count ++ line) =
      split rule place (slashes + count) (some text) line := by
  induction count generalizing slashes with
  | zero => rfl
  | succ count ih =>
    rw [backslashes, List.replicate_succ, List.cons_append, split_backslash, Option.getD_some, steady]
    rw [← backslashes, ih, Nat.add_right_comm, Nat.add_assoc]

/-- The rest of a line ends the argument before it, and `next` are the arguments after that. -/
structure Ends (rule : DoubledQuote) (line : List Char) (next : List (List Char)) : Prop where
  closes : ∀ place slashes text, place ≠ .inside →
    split rule place slashes (some text) line = (text ++ backslashes slashes) :: next

theorem ends_nil (rule : DoubledQuote) : Ends rule [] [] := ⟨fun _ _ _ _ => rfl⟩

theorem ends_separator (rule : DoubledQuote) {character : Char} (line : List Char)
    (separates : isSeparator character = true) :
    Ends rule (character :: line) (arguments rule line) :=
  ⟨fun place slashes _ unquoted => split_separator rule place slashes _ line separates unquoted⟩

end CodexHost.Foundation.ArgumentSplitting
