import CodexHost.Source.MappingStore.Records

/-!
# Credentials in Git origin URLs

What a Git remote carries in front of its host, as a reader of the stored value sees it: the URL parser
for what it accepts, else the text, without what the URL standard drops before it parses.
-/
namespace CodexHost.Guarantees.OriginCredentials
open Source.MappingStore List Option

/-- A control character or the space, which the URL standard drops in front. -/
def blank (c : Char) : Bool := c.toNat ≤ 32

/-- The URL standard drops tabs and line breaks everywhere. -/
def solid (c : Char) : Bool := c ≠ '\t' && c ≠ '\n' && c ≠ '\r'

def strip (text : List Char) : List Char := (text.dropWhile blank).filter solid

structure UserInfo where
  info : List Char
  /-- A user name alone identifies an SSH account. -/
  login : Bool

def UserInfo.secret (user : UserInfo) : Bool := !(user.login && !user.info.contains ':')

def sshScheme (name : List Char) : Bool :=
  String.ofList (name.map Char.toLower) = "ssh" || String.ofList (name.map Char.toLower) = "git+ssh"

def authority (text : List Char) : List Char := text.takeWhile fun c => c ≠ '/' && c ≠ '?' && c ≠ '#'

/-- The user information of a URL by its text, or of an scp-like remote. -/
def userInfo (text : List Char) : Option UserInfo :=
  match matchScheme text with
  | some (name, rest) => (splitAtLast (authority rest)).map fun parts => ⟨parts.1, sshScheme name⟩
  | none => (splitAtFirst (text.takeWhile (· ≠ '/'))).map fun parts => ⟨parts.1, true⟩

def hasSecret (text : List Char) : Bool := (userInfo text).any UserInfo.secret

section Readers
variable (parseUrl : UrlParser)

/-- The URL with a host that the parser sees in a text. -/
def seen (value : String) : Option ParsedUrl := (parseUrl value).filter (·.host ≠ "")

def UrlClean (value : String) : Prop :=
  ∀ url, seen parseUrl value = some url →
    url.password = "" ∧ (url.username = "" ∨ url.protocol = "ssh:" ∨ url.protocol = "git+ssh:")

def TextClean (text : List Char) : Prop := hasSecret (strip text) = false

/-- No password, and no user information in front of the host other than an SSH user name. -/
def Clean (value : String) : Prop :=
  UrlClean parseUrl value ∧ (seen parseUrl value = none → TextClean value.toList)

end Readers

variable {name rest : List Char} {p : Char → Bool}

section Splitting
variable {text : List Char} {c : Char}

def schemeChar (c : Char) : Bool := c.isAlphanum || c = '+' || c = '.' || c = '-'

theorem takeWhile_append_cons {front back : List Char} (all : ∀ c ∈ front, p c = true)
    (stops : p c = false) : (front ++ c :: back).takeWhile p = front := by
  induction front with
  | nil => simp [stops]
  | cons first rest ih =>
    rw [forall_mem_cons] at all
    rw [cons_append, takeWhile_cons_of_pos all.1, ih all.2]

theorem splitAtFirst_append {before after : List Char} (first : '@' ∉ before) :
    splitAtFirst (before ++ '@' :: after) = some (before, after) := by
  have taken : (before ++ '@' :: after).takeWhile (· ≠ '@') = before := by
    refine takeWhile_append_cons (fun c member => ?_) (by simp)
    simpa using fun same : c = '@' => first (same ▸ member)
  rw [splitAtFirst]
  simp only [taken]
  simp

theorem splitAtFirst_eq_none (absent : '@' ∉ text) : splitAtFirst text = none := by
  have taken : text.takeWhile (· ≠ '@') = text := by
    refine takeWhile_eq_self_iff.mpr fun c member => ?_
    simpa using fun same : c = '@' => absent (same ▸ member)
  rw [splitAtFirst]
  simp only [taken]
  simp

theorem splitAtLast_append {before after : List Char} (last : '@' ∉ after) :
    splitAtLast (before ++ '@' :: after) = some (before, after) := by
  have taken : (before ++ '@' :: after).reverse.takeWhile (· ≠ '@') = after.reverse := by
    rw [reverse_append, reverse_cons, append_assoc]
    refine takeWhile_append_cons (fun c member => ?_) (by simp)
    simpa using fun same : c = '@' => last (same ▸ mem_reverse.mp member)
  rw [splitAtLast]
  simp only [taken, reverse_reverse]
  have length : (before ++ '@' :: after).length = before.length + (after.length + 1) := length_append
  rw [length, if_pos (by omega), show before.length + (after.length + 1) - after.length - 1 = before.length by omega,
    take_left]

theorem splitAtLast_eq_none (absent : '@' ∉ text) : splitAtLast text = none := by
  have taken : text.reverse.takeWhile (· ≠ '@') = text.reverse := by
    refine takeWhile_eq_self_iff.mpr fun c member => ?_
    simpa using fun same : c = '@' => absent (same ▸ mem_reverse.mp member)
  rw [splitAtLast]
  simp only [taken]
  simp

/-- The two ways a text stands to the first `@`. -/
theorem first_at (text : List Char) :
    '@' ∉ text ∨ ∃ before after, text = before ++ '@' :: after ∧ '@' ∉ before := by
  by_cases member : '@' ∈ text
  · exact .inr (eq_append_cons_of_mem member)
  · exact .inl member

theorem last_at (text : List Char) :
    '@' ∉ text ∨ ∃ before after, text = before ++ '@' :: after ∧ '@' ∉ after := by
  rcases first_at text.reverse with absent | ⟨before, after, is, first⟩
  · exact .inl fun member => absent (mem_reverse.mpr member)
  · refine .inr ⟨after.reverse, before.reverse, ?_, fun member => first (mem_reverse.mp member)⟩
    rw [← reverse_reverse text, is]
    simp

theorem matchScheme_eq (text : List Char) : matchScheme text =
      if text.head?.any Char.isAlpha then
        match text.drop (text.takeWhile schemeChar).length with
        | ':' :: '/' :: '/' :: rest => some (text.takeWhile schemeChar, rest)
        | _ => none
      else none := by
  cases text with
  | nil => rfl
  | cons first tail =>
    rw [matchScheme]
    change _ = if first.isAlpha = true then _ else _
    by_cases alpha : first.isAlpha = true
    · simp only [alpha, if_true]
      rfl
    · simp only [alpha, Bool.false_eq_true, if_false]
      split <;> rfl

theorem matchScheme_append (chars : ∀ c ∈ name, schemeChar c = true)
    (alpha : name.head?.any Char.isAlpha = true) :
    matchScheme (name ++ "://".toList ++ rest) = some (name, rest) := by
  have whole : name ++ "://".toList ++ rest = name ++ ':' :: '/' :: '/' :: rest := by
    rw [append_assoc]
    rfl
  have taken : (name ++ ':' :: '/' :: '/' :: rest).takeWhile schemeChar = name :=
    takeWhile_append_cons chars (by decide)
  have head : (name ++ ':' :: '/' :: '/' :: rest).head?.any Char.isAlpha = true := by
    cases name with
    | nil => cases alpha
    | cons => exact alpha
  rw [whole, matchScheme_eq, if_pos head, taken, drop_left]
  rfl

theorem matchScheme_eq_some (is : matchScheme text = some (name, rest)) :
    text = name ++ "://".toList ++ rest ∧ (∀ c ∈ name, schemeChar c = true) ∧
      name.head?.any Char.isAlpha = true := by
  rw [matchScheme_eq] at is
  split at is
  · rename_i alpha
    split at is
    · rename_i after dropped
      obtain ⟨same, rfl⟩ := Prod.mk.inj (Option.some.inj is)
      have front := prefix_iff_eq_take.mp (List.takeWhile_prefix schemeChar (l := text))
      have parts := take_append_drop (text.takeWhile schemeChar).length text
      rw [dropped, ← front, same] at parts
      refine ⟨?_, fun c member => ?_, ?_⟩
      · rw [← parts, append_assoc]
        rfl
      · rw [← same] at member
        exact mem_takeWhile_imp member
      · rw [← same]
        cases text with
        | nil => cases alpha
        | cons first tail =>
          have alpha : first.isAlpha = true := alpha
          rw [takeWhile_cons_of_pos (by simp [schemeChar, Char.isAlphanum, alpha])]
          exact alpha
    · cases is
  · cases is

end Splitting

section Stripping
variable {text : List Char}

theorem mem_strip {c : Char} (kept : blank c = false ∧ solid c = true) : c ∈ strip text ↔ c ∈ text := by
  rw [strip, mem_filter, and_iff_left kept.2]
  induction text with
  | nil => rfl
  | cons first rest ih =>
    rw [dropWhile_cons]
    split
    · rename_i skipped
      have other : c ≠ first := by
        intro same
        rw [← same, kept.1] at skipped
        cases skipped
      rw [ih, mem_cons, or_iff_right other]
    · rfl

theorem takeWhile_solid (kept : ∀ c, p c = false → solid c = true) (text : List Char) :
    (text.filter solid).takeWhile p = (text.takeWhile p).filter solid := by
  induction text with
  | nil => rfl
  | cons first rest ih =>
    cases stops : p first with
    | false => simp [stops, kept first stops]
    | true => cases keeps : solid first <;> simp [stops, keeps, ih]

theorem takeWhile_strip (kept : ∀ c, p c = false → blank c = false ∧ solid c = true)
    (text : List Char) : (strip text).takeWhile p = strip (text.takeWhile p) := by
  rw [strip, strip, takeWhile_solid fun c stops => (kept c stops).2]
  congr 1
  induction text with
  | nil => rfl
  | cons first rest ih =>
    cases stops : p first with
    | false => simp [stops, (kept first stops).1]
    | true => cases skips : blank first <;> simp [stops, skips, ih]

theorem strip_append_at (front back : List Char) :
    strip (front ++ '@' :: back) = strip front ++ '@' :: back.filter solid := by
  rw [strip, strip]
  induction front with
  | nil => rfl
  | cons first rest ih =>
    cases skips : blank first with
    | true => simpa [skips] using ih
    | false =>
      rw [cons_append, dropWhile_cons_of_neg (by simp [skips]),
        dropWhile_cons_of_neg (by simp [skips]), ← cons_append, filter_append]
      rfl

theorem solid_of_schemeChar {c : Char} (is : schemeChar c = true) : solid c = true := by
  by_contra broken
  simp only [solid, Bool.and_eq_true, decide_eq_true_eq, not_and_or, not_not] at broken
  rcases broken with (rfl | rfl) | rfl <;> exact absurd is (by decide)

theorem not_blank_of_isAlpha {c : Char} (is : c.isAlpha = true) : blank c = false := by
  simp only [Char.isAlpha, Char.isUpper, Char.isLower, Bool.or_eq_true, Bool.and_eq_true,
    decide_eq_true_eq, ge_iff_le, UInt32.le_iff_toNat_le] at is
  have above : 65 ≤ c.toNat := by
    rcases is with is | is
    · exact is.1
    · exact le_trans (by decide) is.1
  simp only [blank, decide_eq_false_iff_not]
  omega

theorem strip_scheme (chars : ∀ c ∈ name, schemeChar c = true) (alpha : name.head?.any Char.isAlpha = true) :
    strip (name ++ "://".toList ++ rest) = name ++ "://".toList ++ rest.filter solid := by
  cases name with
  | nil => cases alpha
  | cons first name =>
    have front : (first :: name).filter solid = first :: name :=
      filter_eq_self.mpr fun c member => solid_of_schemeChar (chars c member)
    rw [strip, cons_append, cons_append, dropWhile_cons_of_neg (by
      rw [not_blank_of_isAlpha alpha]; exact Bool.false_ne_true), ← cons_append, ← cons_append,
      filter_append, filter_append, front]
    rfl

end Stripping

section Secrets
variable {text : List Char}

/-- The text after the user information. -/
def remainder (text : List Char) : List Char :=
  match matchScheme text with
  | some (name, rest) =>
    (splitAtLast (authority rest)).elim text fun parts =>
      name ++ "://".toList ++ parts.2 ++ rest.drop (authority rest).length
  | none =>
    (splitAtFirst (text.takeWhile (· ≠ '/'))).elim text fun parts =>
      parts.2 ++ text.drop (text.takeWhile (· ≠ '/')).length

theorem takeWhile_append_drop (p : Char → Bool) (text : List Char) :
    text.takeWhile p ++ text.drop (text.takeWhile p).length = text := by
  have front := prefix_iff_eq_take.mp (List.takeWhile_prefix p (l := text))
  conv_lhs => rw [front]
  rw [length_take_of_le (List.takeWhile_prefix p).length_le]
  exact take_append_drop _ text

theorem drop_takeWhile (p : Char → Bool) (text : List Char) :
    text.drop (text.takeWhile p).length = text.dropWhile p :=
  append_cancel_left ((takeWhile_append_drop p text).trans takeWhile_append_dropWhile.symm)

theorem takeWhile_dropWhile (p : Char → Bool) (text : List Char) : (text.dropWhile p).takeWhile p = [] := by
  induction text with
  | nil => rfl
  | cons first rest ih => cases passes : p first <;> simp [passes, ih]

/-- What the code makes of a text that is no URL with a host. -/
theorem withoutUnparsed_eq (value : String) : withoutUnparsedUrlCredentials value =
      if hasSecret value.toList then String.ofList (remainder value.toList) else value := by
  have same : ∀ text : List Char, text = value.toList → String.ofList text = value := by
    intro text is
    rw [is, String.ofList_toList]
  rw [withoutUnparsedUrlCredentials]
  cases scheme : matchScheme value.toList with
  | some parts =>
    obtain ⟨name, rest⟩ := parts
    obtain ⟨whole, -⟩ := matchScheme_eq_some scheme
    have front := takeWhile_append_drop (fun c => c ≠ '/' && c ≠ '?' && c ≠ '#') rest
    rw [← authority] at front
    simp only [hasSecret, userInfo, remainder, scheme]
    rw [← authority]
    rcases last_at (authority rest) with absent | ⟨info, host, is, last⟩
    · simp only [splitAtLast_eq_none absent]
      rfl
    · simp only [is, splitAtLast_append last, map_some, any_some, UserInfo.secret, sshScheme]
      cases kept : (decide (String.ofList (name.map Char.toLower) = "ssh") ||
          decide (String.ofList (name.map Char.toLower) = "git+ssh")) && !info.contains ':' with
      | false => simp
      | true =>
        rw [is] at front
        refine same _ ?_
        rw [whole]
        conv_rhs => rw [← front]
        simp
  | none =>
    have front := takeWhile_append_drop (· ≠ '/') value.toList
    simp only [hasSecret, userInfo, remainder, scheme]
    rcases first_at (value.toList.takeWhile (· ≠ '/')) with absent | ⟨info, host, is, first⟩
    · simp only [splitAtFirst_eq_none absent]
      rfl
    · simp only [is, splitAtFirst_append first, map_some, any_some, UserInfo.secret]
      cases kept : info.contains ':' with
      | true => simp
      | false =>
        rw [is] at front
        refine same _ ?_
        conv_rhs => rw [← front]
        simp

/-- The URL standard sees a scheme where the code, which does not drop anything, sees none. -/
def Misread (text : List Char) : Prop := matchScheme text = none ∧ matchScheme (strip text) ≠ none

theorem contains_strip (info : List Char) : (strip info).contains ':' = info.contains ':' := by
  have colon : ':' ∈ strip info ↔ ':' ∈ info := mem_strip (by decide)
  simp only [contains_eq_mem, colon]

theorem contains_filter (info : List Char) : (info.filter solid).contains ':' = info.contains ':' := by
  have colon : ':' ∈ info.filter solid ↔ ':' ∈ info := by simp [solid]
  simp only [contains_eq_mem, colon]

theorem authority_filter (text : List Char) : authority (text.filter solid) = (authority text).filter solid := by
  refine takeWhile_solid (fun c stops => ?_) text
  by_contra broken
  simp only [solid, Bool.and_eq_true, decide_eq_true_eq, not_and_or, not_not] at broken
  rcases broken with (rfl | rfl) | rfl <;> exact absurd stops (by decide)

theorem hasSecret_scheme (scheme : matchScheme text = some (name, rest)) :
    hasSecret (strip text) = hasSecret text := by
  obtain ⟨whole, chars, alpha⟩ := matchScheme_eq_some scheme
  have stripped : matchScheme (strip text) = some (name, rest.filter solid) := by
    rw [whole, strip_scheme chars alpha]
    exact matchScheme_append chars alpha
  simp only [hasSecret, userInfo, scheme, stripped, authority_filter]
  rcases last_at (authority rest) with absent | ⟨info, host, is, last⟩
  · rw [splitAtLast_eq_none absent, splitAtLast_eq_none fun member => absent (mem_of_mem_filter member)]
  · have parts : (authority rest).filter solid = info.filter solid ++ '@' :: host.filter solid := by
      rw [is, filter_append]
      rfl
    rw [parts, is, splitAtLast_append last, splitAtLast_append fun member => last (mem_of_mem_filter member)]
    simp only [map_some, any_some, UserInfo.secret, contains_filter]

/-- Nothing that the URL standard drops is a delimiter. -/
theorem segment_strip (text : List Char) :
    (strip text).takeWhile (· ≠ '/') = strip (text.takeWhile (· ≠ '/')) := by
  refine takeWhile_strip (fun c stops => ?_) text
  have slash : c = '/' := by simpa using stops
  rw [slash]
  decide

theorem hasSecret_scp (scheme : matchScheme text = none) (stripped : matchScheme (strip text) = none) :
    hasSecret (strip text) = hasSecret text := by
  simp only [hasSecret, userInfo, scheme, stripped, segment_strip]
  rcases first_at (text.takeWhile (· ≠ '/')) with absent | ⟨info, host, is, first⟩
  · rw [splitAtFirst_eq_none absent, splitAtFirst_eq_none fun member => absent ((mem_strip (by decide)).mp member)]
  · rw [is, strip_append_at, splitAtFirst_append first,
      splitAtFirst_append fun member => first ((mem_strip (by decide)).mp member)]
    simp only [map_some, any_some, UserInfo.secret, contains_strip]

theorem hasSecret_strip (read : ¬Misread text) : hasSecret (strip text) = hasSecret text := by
  cases scheme : matchScheme text with
  | some parts => exact hasSecret_scheme scheme
  | none =>
    rw [Misread, not_and, not_not] at read
    exact hasSecret_scp scheme (read scheme)

/-- The code finds no user information in front of a misread scheme. -/
theorem hasSecret_misread (misread : Misread text) : hasSecret text = false := by
  obtain ⟨scheme, stripped⟩ := misread
  obtain ⟨⟨name, rest⟩, is⟩ := ne_none_iff_exists'.mp stripped
  obtain ⟨whole, chars, -⟩ := matchScheme_eq_some is
  have segment : (strip text).takeWhile (· ≠ '/') = name ++ [':'] := by
    have parts : strip text = name ++ [':'] ++ '/' :: '/' :: rest := by
      rw [whole, append_assoc, append_assoc]
      rfl
    rw [parts]
    refine takeWhile_append_cons (fun c member => ?_) (by decide)
    rcases mem_append.mp member with inName | colon
    · simpa using fun same : c = '/' => absurd (chars c inName) (same ▸ by decide)
    · rw [mem_singleton.mp colon]
      decide
  have absent : '@' ∉ text.takeWhile (· ≠ '/') := by
    rw [← mem_strip (by decide), ← segment_strip, segment, mem_append, mem_singleton]
    rintro (member | same)
    · exact absurd (chars _ member) (by decide)
    · exact absurd same (by decide)
  simp only [hasSecret, userInfo, scheme, splitAtFirst_eq_none absent]
  rfl

/-- Behind the last `@` of the authority of a URL there is no user information. -/
theorem remainder_scheme (scheme : matchScheme text = some (name, rest))
    (secret : hasSecret text = true) : TextClean (remainder text) := by
  obtain ⟨whole, chars, alpha⟩ := matchScheme_eq_some scheme
  simp only [hasSecret, userInfo, scheme] at secret
  rcases last_at (authority rest) with absent | ⟨info, host, is, last⟩
  · rw [splitAtLast_eq_none absent] at secret
    cases secret
  · have prefixed : ∀ c ∈ host, (c ≠ '/' && c ≠ '?' && c ≠ '#') = true := by
      intro c member
      have within : c ∈ authority rest := by
        rw [is]
        exact mem_append_right _ (mem_cons_of_mem _ member)
      exact mem_takeWhile_imp (p := fun c => c ≠ '/' && c ≠ '?' && c ≠ '#') within
    have host_only : authority (host ++ rest.drop (authority rest).length) = host := by
      rw [authority, takeWhile_append_of_pos prefixed, authority, drop_takeWhile, takeWhile_dropWhile,
        append_nil]
    have stripped : strip (remainder text) =
        name ++ "://".toList ++ (host ++ rest.drop (authority rest).length).filter solid := by
      simp only [remainder, scheme, is, splitAtLast_append last, elim_some]
      rw [append_assoc]
      exact strip_scheme chars alpha
    rw [TextClean, stripped]
    simp only [hasSecret, userInfo, matchScheme_append chars alpha, authority_filter, host_only]
    rw [splitAtLast_eq_none fun member => last (mem_of_mem_filter member)]
    rfl

end Secrets

section Stored
variable {parseUrl : UrlParser} {value : String}

/-- Without user information, or with the user name alone, a URL with a host reads back. -/
def Reparses (parseUrl : UrlParser) : Prop :=
  ∀ value url, seen parseUrl value = some url → ∀ user, user = url.username ∨ user = "" →
    ∃ url', seen parseUrl (url.serialize user "") = some url' ∧ url'.protocol = url.protocol ∧
      url'.username = user ∧ url'.password = ""

/-- The user information that is dropped from a text is all there is: no blanks, tabs or line breaks
hide the scheme, and what is left has none, as a URL or, for an scp-like remote, as a text. -/
def Strippable (parseUrl : UrlParser) (value : String) : Prop :=
  seen parseUrl value = none → hasSecret (strip value.toList) = true →
    let rest := remainder value.toList
    ¬Misread value.toList ∧ UrlClean parseUrl (String.ofList rest) ∧
      (matchScheme value.toList = none → seen parseUrl (String.ofList rest) = none → TextClean rest)

theorem withoutUrlCredentials_seen {url : ParsedUrl} (is : seen parseUrl value = some url) :
    withoutUrlCredentials parseUrl value =
      let keepUser := url.protocol = "ssh:" || url.protocol = "git+ssh:"
      if url.password = "" && (keepUser || url.username = "") then value
      else url.serialize (if keepUser then url.username else "") "" := by
  obtain ⟨parsed, host⟩ := filter_eq_some_iff.mp is
  rw [withoutUrlCredentials, parsed]
  dsimp only
  rw [if_neg (by simpa using host)]

theorem withoutUrlCredentials_unseen (is : seen parseUrl value = none) :
    withoutUrlCredentials parseUrl value = withoutUnparsedUrlCredentials value := by
  rw [withoutUrlCredentials]
  split
  · rfl
  · rename_i url parsed
    have host : url.host = "" := by simpa [seen, parsed] using is
    rw [if_pos host]

/-- Nothing is taken from a clean value. -/
theorem clean_fixed (clean : Clean parseUrl value) : withoutUrlCredentials parseUrl value = value := by
  cases is : seen parseUrl value with
  | some url =>
    obtain ⟨password, user⟩ := clean.1 url is
    rw [withoutUrlCredentials_seen is]
    refine if_pos ?_
    rcases user with user | user | user <;> simp [password, user]
  | none =>
    have text : hasSecret value.toList = false := by
      by_cases misread : Misread value.toList
      · exact hasSecret_misread misread
      · rw [← hasSecret_strip misread]
        exact clean.2 is
    rw [withoutUrlCredentials_unseen is, withoutUnparsed_eq, text]
    rfl

theorem clean_seen (reparses : Reparses parseUrl) {url : ParsedUrl} (is : seen parseUrl value = some url) :
    Clean parseUrl (withoutUrlCredentials parseUrl value) := by
  rw [withoutUrlCredentials_seen is]
  dsimp only
  split
  · rename_i clean
    refine ⟨fun other same => ?_, fun none => ?_⟩
    · rw [is, some.injEq] at same
      simp only [Bool.and_eq_true, Bool.or_eq_true, decide_eq_true_eq] at clean
      rw [← same]
      exact ⟨clean.1, by tauto⟩
    · rw [is] at none
      cases none
  · cases keep : (decide (url.protocol = "ssh:") || decide (url.protocol = "git+ssh:")) with
    | true =>
      obtain ⟨url', is', protocol, username, password⟩ := reparses value url is url.username (.inl rfl)
      refine ⟨fun other same => ?_, fun none => ?_⟩
      · rw [if_pos rfl, is', some.injEq] at same
        rw [← same, protocol]
        exact ⟨password, .inr (by simpa using keep)⟩
      · rw [if_pos rfl, is'] at none
        cases none
    | false =>
      obtain ⟨url', is', protocol, username, password⟩ := reparses value url is "" (.inr rfl)
      refine ⟨fun other same => ?_, fun none => ?_⟩
      · rw [if_neg Bool.false_ne_true, is', some.injEq] at same
        rw [← same]
        exact ⟨password, .inl username⟩
      · rw [if_neg Bool.false_ne_true, is'] at none
        cases none

theorem clean_unseen (is : seen parseUrl value = none) :
    Clean parseUrl (withoutUrlCredentials parseUrl value) ↔ Strippable parseUrl value := by
  have url : UrlClean parseUrl value := fun url same => by
    rw [is] at same
    cases same
  have whole : Clean parseUrl value ↔ TextClean value.toList :=
    ⟨fun clean => clean.2 is, fun clean => ⟨url, fun _ => clean⟩⟩
  rw [withoutUrlCredentials_unseen is, withoutUnparsed_eq, Strippable]
  by_cases misread : Misread value.toList
  · rw [hasSecret_misread misread, if_neg Bool.false_ne_true, whole, TextClean]
    cases hasSecret (strip value.toList) <;> simp [is, misread]
  · rw [hasSecret_strip misread]
    cases secret : hasSecret value.toList with
    | false =>
      rw [if_neg Bool.false_ne_true, whole, TextClean, hasSecret_strip misread, secret]
      simp
    | true =>
      rw [if_pos rfl, Clean, String.toList_ofList]
      simp only [is, misread, true_implies, not_false_eq_true, true_and]
      refine and_congr_right fun _ => ⟨fun clean _ => clean, fun clean none => ?_⟩
      cases scheme : matchScheme value.toList with
      | some parts => exact remainder_scheme scheme secret
      | none => exact clean scheme none

end Stored

def sampleSerialize (username password : String) : String :=
  "https://" ++ (if username = "" && password = "" then ""
    else username ++ (if password = "" then "" else ":" ++ password) ++ "@") ++ "example.com/r.git"

def sampleUsers : List (String × String) := [("user", "pass"), ("user", ""), ("", "")]

/-- The parser on some texts of one URL; it rejects the others. -/
def sampleParser : UrlParser := fun value =>
  (sampleUsers.find? fun user => sampleSerialize user.1 user.2 = value).map fun user =>
    { protocol := "https:", host := "example.com", username := user.1, password := user.2
      serialize := sampleSerialize }

theorem sampleParser_reparses : Reparses sampleParser := by
  intro value url is user name
  obtain ⟨parsed, -⟩ := filter_eq_some_iff.mp is
  obtain ⟨pair, found, rfl⟩ := map_eq_some_iff.mp parsed
  have names : user = "user" ∨ user = "" := by
    have member := mem_of_find?_eq_some found
    simp only [sampleUsers, mem_cons, not_mem_nil, or_false] at member
    rcases member with rfl | rfl | rfl <;> tauto
  have listed : ∀ name, name = "user" ∨ name = "" →
      sampleUsers.find? (fun user => sampleSerialize user.1 user.2 = sampleSerialize name "") = some (name, "") := by
    rintro name (rfl | rfl) <;> decide +kernel
  refine ⟨⟨"https:", "example.com", user, "", sampleSerialize⟩, ?_, rfl, rfl, rfl⟩
  simp [seen, sampleParser, listed user names]

def sampleRecord : StoredThreadRecordV1 :=
  { noThreadMetadata with
    revision := 1, hostThreadId := "thread", createRequestId := "request", harnessId := "pi"
    state := .creating, nativeSessionRef := none, importSourceRef := none, cwd := "/work", title := ""
    archived := false, transportModelId := "model", ephemeral := false, historyMode := .legacy
    forkSource := none, subagent := none, turnMappings := [], createdAt := 0, updatedAt := 0, unknown := [] }

/-- The parser on scp-like texts, which are URLs without a host. -/
def opaqueParser : UrlParser := fun value =>
  some ⟨String.ofList (value.toList.takeWhile (· ≠ ':')) ++ ":", "", "", "", fun _ _ => value⟩

end CodexHost.Guarantees.OriginCredentials
