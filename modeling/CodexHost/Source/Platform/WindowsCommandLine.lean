import Mathlib

/-!
# The Windows command line

`crates/platform/src/windows_command_line.rs`. An argument is a text of Unicode characters, so the lossy
conversion changes nothing.
-/
namespace CodexHost.Source.Platform.WindowsCommandLine

/-- The loop's `output` and the `backslashes` read and not yet written. -/
structure Quoting where
  output : List Char
  backslashes : Nat
  deriving DecidableEq, Repr

/-- `"\\".repeat(count)` -/
def repeatBackslash (count : Nat) : List Char := List.replicate count '\\'

def quoteCharacter (quoting : Quoting) (character : Char) : Quoting :=
  if character = '\\' then { quoting with backslashes := quoting.backslashes + 1 }
  else if character = '"' then
    { output := quoting.output ++ repeatBackslash (quoting.backslashes * 2 + 1) ++ ['"']
      backslashes := 0 }
  else
    { output := quoting.output ++ repeatBackslash quoting.backslashes ++ [character]
      backslashes := 0 }

def quoteWindowsArgument (value : List Char) : List Char :=
  if !value.isEmpty && !value.any (fun c => c == ' ' || c == '\t' || c == '"') then value
  else
    let quoting := value.foldl quoteCharacter { output := ['"'], backslashes := 0 }
    quoting.output ++ repeatBackslash (quoting.backslashes * 2) ++ ['"']

def windowsCommandLine (arguments : List (List Char)) : List Char :=
  [' '].intercalate (arguments.map quoteWindowsArgument)

end CodexHost.Source.Platform.WindowsCommandLine
