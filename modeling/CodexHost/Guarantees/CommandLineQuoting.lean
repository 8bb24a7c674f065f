import CodexHost.Foundation.ArgumentSplitting
import CodexHost.Source.Platform.WindowsCommandLine

/-!
# Quoted arguments come back

A quoted argument, read from its first character up to a separator or the end of the line, is that
argument. What is read after the backslashes of a run is the same whatever the run's length.
-/
namespace CodexHost.Guarantees.CommandLineQuoting
open Foundation.ArgumentSplitting Source.Platform.WindowsCommandLine List

section Quoting

/-- What is still written for the characters of an argument, after `slashes` backslashes. -/
def quoteRest (slashes : Nat) : List Char → List Char
  | [] => backslashes (slashes * 2) ++ ['"']
  | character :: value =>
    if character = '\\' then quoteRest (slashes + 1) value
    else if character = '"' then backslashes (slashes * 2 + 1) ++ '"' :: quoteRest 0 value
    else backslashes slashes ++ character :: quoteRest 0 value

/-- The loop writes at the end of its output. -/
theorem quoting_rest (value : List Char) (quoting : Quoting) : (value.foldl quoteCharacter quoting).output ++
      repeatBackslash ((value.foldl quoteCharacter quoting).backslashes * 2) ++ ['"'] =
    quoting.output ++ quoteRest quoting.backslashes value := by
  induction value generalizing quoting with
  | nil => simp [quoteRest, repeatBackslash, backslashes]
  | cons character value ih =>
    rw [foldl_cons, ih, quoteRest, quoteCharacter]
    by_cases backslash : character = '\\'
    · rw [if_pos backslash, if_pos backslash]
    by_cases quote : character = '"'
    · rw [if_neg backslash, if_neg backslash, if_pos quote, if_pos quote]
      simp [repeatBackslash, backslashes]
    · rw [if_neg backslash, if_neg backslash, if_neg quote, if_neg quote]
      simp [repeatBackslash, backslashes]

variable {rule : DoubledQuote} {line : List Char} {next : List (List Char)}

/-- Inside the quotes, the characters of the argument are read and then its end. -/
theorem split_quoteRest (ends : Ends rule line next) (value : List Char) (slashes : Nat) (text : List Char) :
    split rule .inside 0 (some text) (quoteRest slashes value ++ line) =
      (text ++ backslashes slashes ++ value) :: next := by
  induction value generalizing slashes text with
  | nil =>
    rw [quoteRest, append_assoc, split_backslashes rfl, Nat.zero_add, Nat.mul_comm,
      singleton_append, split_quote]
    rw [DoubledQuote.quote, ends.closes .closed _ _ (by decide)]
    simp [backslashes]
  | cons character value ih =>
    rw [quoteRest]
    by_cases backslash : character = '\\'
    · rw [if_pos backslash, ih, backslash, backslashes_add]
      simp [backslashes]
    by_cases quote : character = '"'
    · rw [if_neg backslash, if_pos quote, append_assoc, split_backslashes rfl, Nat.zero_add, Nat.mul_comm,
        cons_append, split_escaped, Place.next, ih, quote]
      simp [backslashes]
    · rw [if_neg backslash, if_neg quote, append_assoc, split_backslashes rfl, Nat.zero_add,
        cons_append, split_character rule _ slashes _ _ backslash quote (.inl rfl),
        Place.next, ih]
      simp [backslashes]

/-- Outside quotes, an argument without separator and quote is read as it stands. -/
theorem split_plain (ends : Ends rule line next) {value : List Char}
    (plain : ∀ c ∈ value, isSeparator c = false ∧ c ≠ '"') (slashes : Nat) (text : List Char) :
    split rule .outside slashes (some text) (value ++ line) =
      (text ++ backslashes slashes ++ value) :: next := by
  induction value generalizing slashes text with
  | nil => rw [nil_append, ends.closes _ _ _ (by decide), append_nil]
  | cons character value ih =>
    obtain ⟨separates, quote⟩ := plain character mem_cons_self
    have others : ∀ c ∈ value, isSeparator c = false ∧ c ≠ '"' :=
      fun c taken => plain c (mem_cons_of_mem _ taken)
    rw [cons_append]
    by_cases backslash : character = '\\'
    · rw [backslash, split_backslash, Place.next.eq_def, ih others, Option.getD_some, backslashes_add]
      simp [backslashes]
    · rw [split_character rule _ slashes _ _ backslash quote (.inr separates), Place.next.eq_def, ih others]
      simp [backslashes]

theorem split_begin (rule : DoubledQuote) {character : Char} (plain : isSeparator character = false)
    (line : List Char) :
    split rule .outside 0 none (character :: line) = split rule .outside 0 (some []) (character :: line) := by
  rw [split, split]
  simp [plain]

theorem split_argument (ends : Ends rule line next) (value : List Char) :
    arguments rule (quoteWindowsArgument value ++ line) = value :: next := by
  rw [quoteWindowsArgument, arguments]
  by_cases unquoted : (!value.isEmpty && !value.any (fun c => c == ' ' || c == '\t' || c == '"')) = true
  · rw [if_pos unquoted]
    have plain : ∀ c ∈ value, isSeparator c = false ∧ c ≠ '"' := by
      intro c taken
      simp only [Bool.and_eq_true, Bool.not_eq_true', any_eq_false] at unquoted
      have none := unquoted.2 c taken
      simp only [Bool.or_eq_true, beq_iff_eq, not_or] at none
      simp [isSeparator, none]
    cases value with
    | nil => simp at unquoted
    | cons character value =>
      rw [cons_append, split_begin rule (plain character mem_cons_self).1, ← cons_append,
        split_plain ends plain]
      simp [backslashes]
  · rw [if_neg unquoted, quoting_rest, append_assoc, singleton_append,
      split_quote rule _ _ _ 0, DoubledQuote.quote, split_quoteRest ends]
    simp [backslashes]

end Quoting

/-- Every list of arguments is what the rules read from its command line. -/
theorem command_line_read_back (rule : DoubledQuote) (values : List (List Char)) :
    arguments rule (windowsCommandLine values) = values := by
  induction values with
  | nil => rfl
  | cons value values ih =>
    cases values with
    | nil =>
      have last := split_argument (ends_nil rule) value
      simpa [windowsCommandLine, List.intercalate] using last
    | cons second values =>
      have line : windowsCommandLine (value :: second :: values) =
          quoteWindowsArgument value ++ ' ' :: windowsCommandLine (second :: values) := by
        simp [windowsCommandLine, List.intercalate]
      rw [line, split_argument (ends_separator rule _ (by decide)), ih]

example : windowsCommandLine ["a\\\"b c\\".toList, [], "d\\".toList] = "\"a\\\\\\\"b c\\\\\" \"\" d\\".toList := by
  decide

end CodexHost.Guarantees.CommandLineQuoting
