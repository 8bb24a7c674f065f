import Mathlib

/-!
# Credential stripping of Git origin URLs

`withoutUrlCredentials` and `withoutUnparsedUrlCredentials` of
`packages/mapping-store/src/mapping-store.ts:114-158`. The WHATWG URL parser is
platform code and stays a parameter: a text is either rejected or seen as the parts
the source reads, together with its serialisation under new user information.
-/
namespace CodexHost.Source.MappingStore

structure ParsedUrl where
  protocol : String
  host : String
  username : String
  password : String
  /-- `url.toString()` after `url.username` and `url.password` were assigned. -/
  serialize : (username password : String) → String

abbrev UrlParser := String → Option ParsedUrl

/-- `/^([a-z][a-z0-9+.-]*):\/\//i`: the scheme name and what follows `://`. -/
def matchScheme (value : List Char) : Option (List Char × List Char) :=
  match value with
  | [] => none
  | first :: _ =>
    let name := value.takeWhile fun c => c.isAlphanum || c = '+' || c = '.' || c = '-'
    match value.drop name.length with
    | ':' :: '/' :: '/' :: rest => if first.isAlpha then some (name, rest) else none
    | _ => none

/-- The text before the last occurrence of `@` and the text after it. -/
def splitAtLast (value : List Char) : Option (List Char × List Char) :=
  let after := value.reverse.takeWhile (· ≠ '@') |>.reverse
  if after.length < value.length then
    some (value.take (value.length - after.length - 1), after)
  else none

/-- The text before the first occurrence of `@` and the text after it. -/
def splitAtFirst (value : List Char) : Option (List Char × List Char) :=
  let before := value.takeWhile (· ≠ '@')
  if before.length < value.length then some (before, value.drop (before.length + 1)) else none

def withoutUnparsedUrlCredentials (value : String) : String :=
  match matchScheme value.toList with
  | some (name, rest) =>
    let authority := rest.takeWhile fun c => c ≠ '/' && c ≠ '?' && c ≠ '#'
    -- A URL password may itself contain "@", so the last one ends the user info.
    match splitAtLast authority with
    | none => value
    | some (userInfo, host) =>
      let protocol := String.ofList (name.map Char.toLower)
      let keepUser := protocol = "ssh" || protocol = "git+ssh"
      let kept := if keepUser && !userInfo.contains ':' then userInfo ++ ['@'] else []
      String.ofList (name ++ "://".toList ++ kept ++ host ++ rest.drop authority.length)
  | none =>
    let authority := value.toList.takeWhile (· ≠ '/')
    -- An scp-style path may contain "@" after the host, so the first one ends the user.
    match splitAtFirst authority with
    | none => value
    | some (userInfo, host) =>
      let kept := if !userInfo.contains ':' then userInfo ++ ['@'] else []
      String.ofList (kept ++ host ++ value.toList.drop authority.length)

def withoutUrlCredentials (parseUrl : UrlParser) (value : String) : String :=
  match parseUrl value with
  | none => withoutUnparsedUrlCredentials value
  | some url =>
    -- `user:token@host:path` parses as an opaque `user:` URL with no host.
    if url.host = "" then withoutUnparsedUrlCredentials value
    else
      let keepUser := url.protocol = "ssh:" || url.protocol = "git+ssh:"
      if url.password = "" && (keepUser || url.username = "") then value
      else url.serialize (if keepUser then url.username else "") ""

end CodexHost.Source.MappingStore
