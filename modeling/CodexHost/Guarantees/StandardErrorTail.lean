import CodexHost.Source.DeepseekHarness.RemoteDiagnostics

/-!
# The tail of standard error

What the listener carries is a part of the text received: from its beginning or from just after white space,
up to the end of a chunk. No credential holds white space, so the front of such a part cuts none. Its end can
cut one, and a session cookie without its signature is not recognised.
-/
namespace CodexHost.Guarantees.StandardErrorTail
open Foundation Source.ProtocolCore.CodexApproval
open Source.DeepseekHarness.RemoteDiagnostics

/-- The text of a chunk. -/
def content : Chunk → Utf16
  | .text value => value
  | .bytes value => Utf8Replacement.lossyText value

def contentOf : Event → Utf16
  | .data chunk => content chunk
  | .close => []

/-- The text that these events bring. -/
def received (events : List Event) : Utf16 := events.flatMap contentOf

/-- At this place the text has a token or a cookie: so many units before it, and so many of its value. -/
def Found (text : Utf16) (start keep dropped : Nat) : Prop :=
  findToken (text.drop start) = some (keep, dropped) ∨ findCookie (text.drop start) = some (keep, dropped)

/-- The unit at this index belongs to a bootstrap token after `token=`, or to the value of a session cookie. -/
def Credential (text : Utf16) (index : Nat) : Prop :=
  ∃ start keep dropped, Found text start keep dropped ∧ start + keep ≤ index ∧ index < start + keep + dropped

/-- This place is the beginning of the text, or just after white space. -/
def Begins (text : Utf16) (start : Nat) : Prop :=
  start = 0 ∨ ∃ unit, text[start - 1]? = some unit ∧ isWhiteSpace unit = true

def piece (text : Utf16) (start stop : Nat) : Utf16 := (text.take stop).drop start

/-- The units of a text with their indices. -/
def numbered (text : Utf16) : List (UInt16 × Option Nat) := text.zipIdx.map fun entry => (entry.1, some entry.2)

/-- The redaction of a text, each unit with the index it was copied from; inserted units have none. -/
def traced (text : Utf16) : List (UInt16 × Option Nat) :=
  redactUnits Prod.fst (fun unit => (unit, none)) (numbered text)

/-- The redaction of a text copies no unit of its credentials. -/
def Removes (text : Utf16) : Prop :=
  ∀ unit index, (unit, some index) ∈ traced text → ¬ Credential text index

/-- Where a chunk ends in the text received. -/
def ChunkEnd (events : List Event) (stop : Nat) : Prop :=
  ∃ before chunk rest, events = before ++ .data chunk :: rest ∧
    stop = (received (before ++ [.data chunk])).length

/-- The tail is empty yet, or it is the redaction of a part of the text: from its beginning or just after white
space, to the end of a chunk. No unit of it is copied from a credential of the text. -/
def Safe (text : Utf16) (events : List Event) : Prop :=
  (after redactModernCredential events).stderrTail = [] ∨
    ∃ start stop, Begins text start ∧ ChunkEnd events stop ∧
      (after redactModernCredential events).stderrTail = redactModernCredential (piece text start stop) ∧
      ∀ unit index, (unit, some index) ∈ traced (piece text start stop) → ¬ Credential text (start + index)

def IsWord (units : Utf16) : Prop := units ≠ [] ∧ ∀ unit ∈ units, isWordUnit unit = true

/-- The text ends inside the value of a session cookie, before its signature. -/
def Unfinished (text : Utf16) : Prop :=
  ∃ start name payload shown, text.drop start = cookiePrefix ++ name ++ 0x3D :: shown ∧
    shown <+: cookieVersion ++ payload ++ [0x2E] ∧ shown ≠ [] ∧ IsWord name ∧ IsWord payload

/-- A buffer holds whole characters. -/
def Whole : Chunk → Prop
  | .text _ => True
  | .bytes value => ∃ text, value = TextEncoding.utf8Bytes text

/-- After these events the next one cuts no session cookie and no character, and brings nothing after a close. -/
def Admits (before : List Event) : Event → Prop
  | .close => True
  | .data chunk => .close ∉ before ∧ Whole chunk ∧ ¬ Unfinished (received (before ++ [.data chunk]))

def WellCut (events : List Event) : Prop :=
  ∀ before event rest, events = before ++ event :: rest → Admits before event

variable {text : Utf16} {unit : UInt16}

section Patterns

theorem word_isToken : ∀ code, code < 0x80 → isWordUnit (UInt16.ofNat code) = true →
    isWhiteSpace (UInt16.ofNat code) = false := by decide +kernel

theorem word_ascii (inside : isWordUnit unit = true) : unit.toNat < 0x80 := by
  simp only [isWordUnit, Bool.or_eq_true, Bool.and_eq_true, decide_eq_true_eq, UInt16.le_iff_toNat_le,
    ← UInt16.toNat_inj] at inside
  have bounds : (0x5A : UInt16).toNat = 0x5A ∧ (0x7A : UInt16).toNat = 0x7A ∧ (0x39 : UInt16).toNat = 0x39 ∧
    (0x5F : UInt16).toNat = 0x5F ∧ (0x2D : UInt16).toNat = 0x2D := by decide
  omega

theorem word_visible (inside : isWordUnit unit = true) : isWhiteSpace unit = false := by
  have visible := word_isToken unit.toNat (word_ascii inside)
  rw [UInt16.ofNat_toNat] at visible
  exact visible inside

theorem word_ok {text front rest : Utf16} :
    word text = some (front, rest) ↔ text = front ++ rest ∧ IsWord front ∧
      ∀ unit ∈ rest.head?, isWordUnit unit = false := by
  rw [word]
  constructor
  · intro found
    split at found
    · cases found
    next some =>
      cases found
      refine ⟨List.takeWhile_append_dropWhile.symm, ⟨some, fun unit member => ?_⟩, fun unit head => ?_⟩
      · exact List.mem_takeWhile_imp member
      · have stop := List.head?_dropWhile_not isWordUnit text
        rw [head] at stop
        simpa using stop
  · rintro ⟨rfl, ⟨some, inside⟩, stop⟩
    have back : rest.takeWhile isWordUnit = [] ∧ rest.dropWhile isWordUnit = rest := by
      cases rest with
      | nil => exact ⟨rfl, rfl⟩
      | cons unit rest =>
        have outside := stop unit rfl
        exact ⟨List.takeWhile_cons_of_neg (by simp [outside]), List.dropWhile_cons_of_neg (by simp [outside])⟩
    rw [List.takeWhile_append_of_pos inside, List.dropWhile_append_of_pos inside, back.1, back.2,
      List.append_nil, if_neg some]

theorem afterUnits_ok {units text rest : Utf16} : afterUnits units text = some rest ↔ text = units ++ rest := by
  rw [afterUnits]
  split
  next is =>
    obtain ⟨back, rfl⟩ := List.isPrefixOf_iff_prefix.1 is
    rw [List.drop_left, Option.some.injEq, List.append_cancel_left_eq]
  next other =>
    refine ⟨fun none => (by cases none), fun same => ?_⟩
    exact absurd (List.isPrefixOf_iff_prefix.2 ⟨rest, same.symm⟩) other

/-- The parts of a session cookie. -/
structure Cookie where
  name : Utf16
  payload : Utf16
  signature : Utf16
  named : IsWord name
  paid : IsWord payload
  signed : IsWord signature

def Cookie.front (cookie : Cookie) : Utf16 := cookiePrefix ++ cookie.name ++ [0x3D]
def Cookie.middle (cookie : Cookie) : Utf16 := cookieVersion ++ cookie.payload ++ [0x2E]

theorem head_not_word (outside : isWordUnit unit = false) (rest : Utf16) :
    ∀ first ∈ (unit :: rest).head?, isWordUnit first = false := by
  intro first head
  cases head
  exact outside

variable {keep dropped : Nat}

theorem findCookie_ok : findCookie text = some (keep, dropped) ↔ ∃ (cookie : Cookie) (back : Utf16),
      text = cookie.front ++ (cookie.middle ++ (cookie.signature ++ back)) ∧
      (∀ unit ∈ back.head?, isWordUnit unit = false) ∧
      keep = cookie.front.length ∧ dropped = cookie.middle.length + cookie.signature.length := by
  rw [findCookie]
  simp only [Option.bind_eq_bind, Option.bind_eq_some_iff, Option.pure_def, Option.some.injEq, Prod.mk.injEq,
    afterUnits_ok]
  constructor
  · rintro ⟨afterPrefix, isText, ⟨name, afterName⟩, named, afterSign, isName, afterVersion, isVersion,
      ⟨payload, afterPayload⟩, paid, afterDot, isDot, ⟨signature, back⟩, signed, isKeep, isDropped⟩
    obtain ⟨prefixed, name_word, -⟩ := word_ok.1 named
    obtain ⟨versioned, payload_word, -⟩ := word_ok.1 paid
    obtain ⟨dotted, signature_word, stop⟩ := word_ok.1 signed
    refine ⟨⟨name, payload, signature, name_word, payload_word, signature_word⟩, back, ?_, stop, ?_, ?_⟩
    · dsimp only at isName isDot
      rw [isText, prefixed, isName, isVersion, versioned, isDot, dotted]
      simp only [Cookie.front, Cookie.middle, List.append_assoc]
    · simp only [Cookie.front, List.length_append, List.length_singleton]
      exact isKeep.symm
    · simp only [Cookie.middle, List.length_append, List.length_singleton]
      exact isDropped.symm
  · rintro ⟨⟨name, payload, signature, named, paid, signed⟩, back, rfl, stop, rfl, rfl⟩
    simp only [Cookie.front, Cookie.middle, List.append_assoc]
    refine ⟨_, rfl, (name, _), word_ok.2 ⟨rfl, named, ?_⟩, _, rfl, _, rfl, (payload, _),
      word_ok.2 ⟨rfl, paid, ?_⟩, _, rfl, (signature, back), word_ok.2 ⟨rfl, signed, stop⟩, ?_, ?_⟩
    · exact head_not_word (by decide) _
    · exact head_not_word (by decide) _
    · simp only [List.length_append, List.length_singleton, Nat.add_assoc]
    · simp only [List.length_append, List.length_singleton, Nat.add_assoc]

theorem visible_all (all : text.all (fun unit => !isWhiteSpace unit) = true) :
    ∀ unit ∈ text, isWhiteSpace unit = false := by
  intro unit member
  simpa using List.all_eq_true.1 all unit member

theorem fold_visible (inside : isWordUnit (foldUnit unit) = true ∨ foldUnit unit = 0x3D) :
    isWhiteSpace unit = false := by
  rw [foldUnit] at inside
  split at inside
  next capital =>
    refine word_visible ?_
    simp only [isWordUnit, Bool.or_eq_true, Bool.and_eq_true, decide_eq_true_eq]
    exact .inl (.inl (.inl (.inl capital)))
  · split at inside
    next is => rw [is]; decide
    · split at inside
      next is => rw [is]; decide
      · rcases inside with word | sign
        · exact word_visible word
        · rw [sign]; decide

theorem beginsToken_iff :
    beginsFolded "token=" text = true ↔ (text.take 6).map foldUnit = Utf16.ofString "token=" := by
  have six : "token=".length = 6 := by decide
  rw [beginsFolded, six, decide_eq_true_iff]

/-- The mark of a token, whatever follows it. -/
theorem findToken_ok (found : findToken text = some (keep, dropped)) :
    ∃ mark back, text = mark ++ back ∧ mark.length = keep ∧ (∀ unit ∈ mark, isWhiteSpace unit = false) ∧
      dropped = (back.takeWhile isTokenUnit).length ∧
      ∀ other, findToken (mark ++ other) = some (keep, (other.takeWhile isTokenUnit).length) := by
  cases text with
  | nil => cases found
  | cons first rest =>
    rw [findToken] at found
    split at found
    next here =>
      obtain ⟨lead, folded⟩ := here
      cases found
      have letters := beginsToken_iff.1 folded
      have six : (rest.take 6).length = 6 := by
        have length := congrArg List.length letters
        rw [List.length_map] at length
        exact length
      refine ⟨first :: rest.take 6, rest.drop 6, ?_, by rw [List.length_cons, six], ?_, rfl, fun other => ?_⟩
      · rw [List.cons_append, List.take_append_drop]
      · intro unit member
        rcases List.mem_cons.1 member with rfl | later
        · rcases lead with is | is <;> rw [is] <;> decide
        · have known : (Utf16.ofString "token=").all (fun folded => isWordUnit folded || folded = 0x3D) = true := by
            decide
          have letter := List.all_eq_true.1 known _ (letters ▸ List.mem_map_of_mem later)
          exact fold_visible (by simpa using letter)
      · have again : beginsFolded "token=" (rest.take 6 ++ other) = true := by
          rw [beginsToken_iff, List.take_append_of_le_length (by omega), List.take_take, Nat.min_self]
          exact letters
        have behind : (rest.take 6 ++ other).drop 6 = other := by
          rw [List.drop_append_of_le_length (by omega), List.drop_take, Nat.sub_self, List.take_zero,
            List.nil_append]
        rw [List.cons_append, findToken, if_pos ⟨lead, again⟩, behind]
    · cases found

theorem token_visible (inside : isTokenUnit unit = true) : isWhiteSpace unit = false := by
  simp only [isTokenUnit, Bool.and_eq_true, Bool.not_eq_true'] at inside
  exact inside.1.1

theorem takeWhile_take {B : Type} (accepts : B → Bool) (list : List B) (count : Nat) :
    (list.take count).takeWhile accepts = (list.takeWhile accepts).take count := by
  induction list generalizing count with
  | nil => simp
  | cons first rest ih =>
    cases count with
    | zero => rfl
    | succ count =>
      rw [List.take_succ_cons]
      by_cases accepted : accepts first = true
      · rw [List.takeWhile_cons_of_pos accepted, List.takeWhile_cons_of_pos accepted, List.take_succ_cons, ih]
      · rw [List.takeWhile_cons_of_neg accepted, List.takeWhile_cons_of_neg accepted, List.take_nil]

theorem cookie_front_visible (cookie : Cookie) : ∀ unit ∈ cookie.front, isWhiteSpace unit = false := by
  have fixed : ∀ unit ∈ cookiePrefix ++ [0x3D], isWhiteSpace unit = false := visible_all (by decide)
  intro unit member
  simp only [Cookie.front, List.mem_append] at member
  rcases member with (before | name) | sign
  · exact fixed unit (List.mem_append_left _ before)
  · exact word_visible (cookie.named.2 unit name)
  · exact fixed unit (List.mem_append_right _ sign)

theorem cookie_middle_visible (cookie : Cookie) : ∀ unit ∈ cookie.middle, isWhiteSpace unit = false := by
  have fixed : ∀ unit ∈ cookieVersion ++ [0x2E], isWhiteSpace unit = false := visible_all (by decide)
  intro unit member
  simp only [Cookie.middle, List.mem_append] at member
  rcases member with (version | payload) | dot
  · exact fixed unit (List.mem_append_left _ version)
  · exact word_visible (cookie.paid.2 unit payload)
  · exact fixed unit (List.mem_append_right _ dot)

/-- A credential and what marks it hold no white space. -/
theorem found_visible
    (found : findToken text = some (keep, dropped) ∨ findCookie text = some (keep, dropped)) :
    ∀ unit ∈ text.take (keep + dropped), isWhiteSpace unit = false := by
  intro unit member
  rcases found with token | session
  · obtain ⟨mark, back, rfl, rfl, visible, rfl, -⟩ := findToken_ok token
    rw [List.take_length_add_append, ← List.prefix_iff_eq_take.1 (List.takeWhile_prefix isTokenUnit)] at member
    rcases List.mem_append.1 member with front | value
    · exact visible unit front
    · exact token_visible (List.mem_takeWhile_imp value)
  · obtain ⟨cookie, back, rfl, -, rfl, rfl⟩ := findCookie_ok.1 session
    rw [List.take_length_add_append, List.take_length_add_append, List.take_left] at member
    rcases List.mem_append.1 member with front | value
    · exact cookie_front_visible cookie unit front
    · rcases List.mem_append.1 value with middle | signature
      · exact cookie_middle_visible cookie unit middle
      · exact word_visible (cookie.signed.2 unit signature)

/-- A text that is cut inside of a credential has the credential up to the cut, or ends in a cookie that lacks
its signature. -/
theorem found_take {keep dropped count : Nat} (inside : keep < count)
    (found : findToken text = some (keep, dropped) ∨ findCookie text = some (keep, dropped)) :
    (findToken (text.take count) = some (keep, min (count - keep) dropped) ∨
      findCookie (text.take count) = some (keep, min (count - keep) dropped)) ∨
    ∃ name payload shown, text.take count = cookiePrefix ++ name ++ 0x3D :: shown ∧
      shown <+: cookieVersion ++ payload ++ [0x2E] ∧ shown ≠ [] ∧ IsWord name ∧ IsWord payload := by
  rcases found with token | session
  · obtain ⟨mark, back, rfl, rfl, -, rfl, again⟩ := findToken_ok token
    refine .inl (.inl ?_)
    rw [List.take_append, List.take_of_length_le (Nat.le_of_lt inside), again, takeWhile_take, List.length_take]
  · obtain ⟨cookie, back, rfl, stop, rfl, rfl⟩ := findCookie_ok.1 session
    rw [List.take_append, List.take_of_length_le (Nat.le_of_lt inside)]
    generalize more : count - cookie.front.length = rest
    rcases Nat.lt_or_ge cookie.middle.length rest with signed | cut
    · refine .inl (.inr (findCookie_ok.2 ⟨⟨cookie.name, cookie.payload,
        cookie.signature.take (rest - cookie.middle.length), cookie.named, cookie.paid, ?_, ?_⟩,
        back.take (rest - cookie.middle.length - cookie.signature.length), ?_, ?_, rfl, ?_⟩))
      · obtain ⟨signed', -⟩ := cookie.signed
        rw [Ne, List.take_eq_nil_iff]
        exact not_or.2 ⟨by omega, signed'⟩
      · exact fun unit member => cookie.signed.2 unit (List.mem_of_mem_take member)
      · rw [List.take_append, List.take_of_length_le (Nat.le_of_lt signed), List.take_append]
        rfl
      · intro unit head
        rw [List.head?_take] at head
        split at head
        · cases head
        · exact stop unit head
      · rw [List.length_take]
        change min rest _ = cookie.middle.length + _
        omega
    · refine .inr ⟨cookie.name, cookie.payload, cookie.middle.take rest, ?_, ?_, ?_, cookie.named, cookie.paid⟩
      · rw [List.take_append_of_le_length cut]
        simp only [Cookie.front, List.append_assoc, List.singleton_append]
      · exact List.take_prefix rest cookie.middle
      · rw [Ne, List.take_eq_nil_iff, ← List.length_eq_zero_iff]
        omega

end Patterns

theorem piece_length (text : Utf16) (start stop : Nat) :
    (piece text start stop).length = min stop text.length - start := by
  rw [piece, List.length_drop, List.length_take]

/-- A credential reaches back to no earlier than where the part of the text begins. -/
theorem begins_before {start from_ length index : Nat} (begins : Begins text start)
    (visible : ∀ unit ∈ (text.drop from_).take length, isWhiteSpace unit = false)
    (inside : start ≤ index) (below : index < from_ + length) : start ≤ from_ := by
  rcases begins with rfl | ⟨unit, before, space⟩
  · exact Nat.zero_le _
  · by_contra later
    have here : ((text.drop from_).take length)[start - 1 - from_]? = some unit := by
      rw [List.getElem?_take_of_lt (by omega), List.getElem?_drop, ← before]
      congr 1
      omega
    have seen := visible unit (List.mem_of_getElem? here)
    rw [space] at seen
    cases seen

/-- A credential of the text is one of the part that shows it, unless the part ends in a cookie without its
signature. -/
theorem credential_piece {start stop index : Nat} (begins : Begins text start)
    (finished : ¬ Unfinished (text.take stop)) (shown : start + index < stop)
    (credential : Credential text (start + index)) : Credential (piece text start stop) index := by
  obtain ⟨from_, keep, dropped, found, low, high⟩ := credential
  have early := begins_before begins (found_visible found) (Nat.le_add_right start index) (by omega)
  have part : (piece text start stop).drop (from_ - start) = (text.drop from_).take (stop - from_) := by
    rw [piece, List.drop_drop, List.drop_take]
    congr 2 <;> omega
  rcases found_take (by omega : keep < stop - from_) found with again | ⟨name, payload, partly, cut, rest⟩
  · refine ⟨from_ - start, keep, min (stop - from_ - keep) dropped, ?_, by omega, by omega⟩
    rw [Found, part]
    exact again
  · refine absurd ⟨from_, name, payload, partly, ?_, rest⟩ finished
    rw [List.drop_take]
    exact cut

section Copies
variable {U V : Type}

/-- A replacement keeps units of the text and inserts its own. -/
theorem replaceAll_mem {unit : U → UInt16} {find : Option UInt16 → Utf16 → Option (Nat × Nat)}
    {inserted text : List U} {before : Option UInt16} {skip : Nat} {copied : U}
    (member : copied ∈ replaceAll unit find inserted before skip text) : copied ∈ inserted ∨ copied ∈ text := by
  induction text generalizing before skip with
  | nil => cases skip <;> cases member
  | cons first rest ih =>
    cases skip with
    | succ skip => exact (ih member).imp_right (List.mem_cons_of_mem _)
    | zero =>
      rw [replaceAll] at member
      split at member
      · rw [List.mem_append, List.mem_append] at member
        rcases member with (kept | new) | later
        · exact .inr (List.mem_of_mem_take kept)
        · exact .inl new
        · exact (ih later).imp_right (List.mem_cons_of_mem _)
      · rcases List.mem_cons.1 member with rfl | later
        · exact .inr List.mem_cons_self
        · exact (ih later).imp_right (List.mem_cons_of_mem _)

theorem redactUnits_mem {unit : U → UInt16} {literal : UInt16 → U} {text : List U} {copied : U}
    (member : copied ∈ redactUnits unit literal text) : (∃ code, copied = literal code) ∨ copied ∈ text := by
  have new : ∀ codes : Utf16, copied ∈ codes.map literal → ∃ code, copied = literal code := by
    intro codes inserted
    obtain ⟨code, _, rfl⟩ := List.mem_map.1 inserted
    exact ⟨code, rfl⟩
  rcases replaceAll_mem (List.mem_of_mem_drop member) with inserted | kept
  · exact .inl (new _ inserted)
  · rcases replaceAll_mem kept with inserted | kept
    · exact .inl (new _ inserted)
    · rcases replaceAll_mem kept with inserted | kept
      · exact .inl (new _ inserted)
      · exact (replaceAll_mem kept).imp_left (new _)

/-- A unit with an index is the unit of the text there. -/
theorem traced_origin {index : Nat} (member : (unit, some index) ∈ traced text) :
    text[index]? = some unit := by
  rcases redactUnits_mem member with ⟨code, inserted⟩ | copied
  · cases inserted
  · obtain ⟨⟨other, place⟩, there, same⟩ := List.mem_map.1 copied
    simp only [Prod.mk.injEq, Option.some.injEq] at same
    rw [← same.1, ← same.2]
    exact List.mem_zipIdx_iff_getElem?.1 there

end Copies

variable {chunk : Chunk}

section Listening
variable {redact : Utf16 → Utf16}

/-- A part of the text received, to its end. -/
def Clean (text carried : Utf16) : Prop :=
  ∃ start, Begins text start ∧ start ≤ text.length ∧ carried = text.drop start

theorem afterWhiteSpace_some {text rest : Utf16} (found : afterWhiteSpace text = some rest) :
    ∃ front unit, text = front ++ unit :: rest ∧ isWhiteSpace unit = true := by
  induction text with
  | nil => cases found
  | cons first later ih =>
    rw [afterWhiteSpace] at found
    split at found
    next space =>
      cases found
      exact ⟨[], first, rfl, space⟩
    next =>
      obtain ⟨front, unit, rfl, space⟩ := ih found
      exact ⟨first :: front, unit, rfl, space⟩

theorem lastUnits_suffix (length : Nat) (text : Utf16) : ∃ front, text = front ++ lastUnits length text :=
  ⟨text.take (text.length - length), (List.take_append_drop _ _).symm⟩

theorem lastUnits_all {V : Type} {length : Nat} {text : List V} (short : text.length ≤ length) :
    lastUnits length text = text := by
  rw [lastUnits, Nat.sub_eq_zero_of_le short, List.drop_zero]

/-- What follows white space near the end of a text is a part of it. -/
theorem clean_space (front : Utf16) (rest : Utf16) (space : isWhiteSpace unit = true) :
    Clean (front ++ unit :: rest) rest := by
  refine ⟨front.length + 1, .inr ⟨unit, ?_, space⟩, by simp, ?_⟩
  · rw [Nat.add_sub_cancel, List.getElem?_append_right (Nat.le_refl _), Nat.sub_self]
    rfl
  · rw [← List.drop_drop, List.drop_left]
    rfl

theorem Clean.after {text carried rest : Utf16} (clean : Clean text carried) {length : Nat}
    (found : afterWhiteSpace (lastUnits length carried) = some rest) : Clean text rest := by
  obtain ⟨start, _, _, rfl⟩ := clean
  obtain ⟨front, unit, last, space⟩ := afterWhiteSpace_some found
  obtain ⟨before, whole⟩ := lastUnits_suffix length (text.drop start)
  have all : text = text.take start ++ before ++ front ++ unit :: rest := by
    rw [List.append_assoc, ← last, List.append_assoc, ← whole, List.take_append_drop]
  rw [all]
  exact clean_space _ rest space

theorem Begins.extend {start : Nat} (begins : Begins text start) (more : Utf16) :
    Begins (text ++ more) start := by
  rcases begins with zero | ⟨unit, before, space⟩
  · exact .inl zero
  · have inside : start - 1 < text.length := (List.getElem?_eq_some_iff.1 before).1
    exact .inr ⟨unit, by rw [List.getElem?_append_left inside, before], space⟩

theorem Clean.extend {text carried : Utf16} (clean : Clean text carried) (more : Utf16) :
    Clean (text ++ more) (carried ++ more) := by
  obtain ⟨start, begins, bound, rfl⟩ := clean
  exact ⟨start, begins.extend more, by rw [List.length_append]; omega,
    (List.drop_append_of_le_length bound).symm⟩

/-- A chunk was heard: the state carries a clean part and shows it, or it carries nothing and shows what it
did. -/
def Heard (redact : Utf16 → Utf16) (text : Utf16) (s t : StandardError) : Prop :=
  t.stderrDiscardUntilWhitespace = false ∧ Clean text t.stderrRawCarry ∧
      t.stderrTail = redact t.stderrRawCarry ∨
    t.stderrDiscardUntilWhitespace = true ∧ t.stderrTail = s.stderrTail

variable {s : StandardError}

theorem heard_combine (open_ : s.stderrDiscardUntilWhitespace = false)
    {text bounded : Utf16} (clean : Clean text (s.stderrRawCarry ++ bounded)) :
    Heard redact text s (s.combine redact bounded) := by
  rw [StandardError.combine]
  split
  · split
    · exact .inr ⟨rfl, rfl⟩
    next rest found => exact .inl ⟨open_, clean.after found, rfl⟩
  · exact .inl ⟨open_, clean, rfl⟩

theorem afterWhiteSpace_replacements (count : Nat) (text : Utf16) :
    afterWhiteSpace (List.replicate count Utf8Replacement.replacement ++ text) = afterWhiteSpace text := by
  induction count with
  | zero => rfl
  | succ count ih =>
    have visible : ¬ isWhiteSpace Utf8Replacement.replacement = true := by decide
    rw [List.replicate_succ, List.cons_append, afterWhiteSpace, if_neg visible, ih]

theorem ofText_append (front back : List Char) :
    Utf16.ofText (front ++ back) = Utf16.ofText front ++ Utf16.ofText back := List.flatMap_append

/-- What a chunk shows after white space is the end of its text after white space. -/
theorem bounded_after (whole : Whole chunk) {rest : Utf16}
    (found : afterWhiteSpace chunk.bounded = some rest) :
    ∃ front unit, content chunk = front ++ unit :: rest ∧ isWhiteSpace unit = true := by
  cases chunk with
  | text value =>
    obtain ⟨front, unit, last, space⟩ := afterWhiteSpace_some found
    obtain ⟨before, all⟩ := lastUnits_suffix STDERR_CHUNK_TAIL_MAX_LENGTH value
    refine ⟨before ++ front, unit, ?_, space⟩
    rw [List.append_assoc, ← last]
    exact all
  | bytes value =>
    obtain ⟨text, rfl⟩ := whole
    obtain ⟨broken, back, front, rfl, decoded⟩ := Utf8Replacement.lossyText_drop text
      ((TextEncoding.utf8Bytes text).length - STDERR_CHUNK_TAIL_MAX_LENGTH)
    rw [Chunk.bounded, lastUnits, decoded, afterWhiteSpace_replacements] at found
    obtain ⟨before, unit, last, space⟩ := afterWhiteSpace_some found
    refine ⟨Utf16.ofText front ++ before, unit, ?_, space⟩
    rw [content, Utf8Replacement.lossyText_text, ofText_append, last, List.append_assoc]

theorem bounded_all (short : ¬ chunk.length > STDERR_CHUNK_TAIL_MAX_LENGTH) :
    chunk.bounded = content chunk := by
  cases chunk with
  | text value => exact lastUnits_all (Nat.le_of_not_lt short)
  | bytes value => rw [Chunk.bounded, lastUnits_all (Nat.le_of_not_lt short), content]

theorem heard_resumed (whole : Whole chunk) {rest : Utf16}
    (found : afterWhiteSpace chunk.bounded = some rest) :
    Heard redact (text ++ content chunk) s (s.resume.combine redact rest) := by
  obtain ⟨front, unit, is, space⟩ := bounded_after whole found
  refine heard_combine (s := s.resume) rfl ?_
  rw [is, ← List.append_assoc]
  exact clean_space (text ++ front) rest space

/-- What one chunk does to what is carried and shown. -/
theorem heard_onData (clean : s.stderrDiscardUntilWhitespace = false → Clean text s.stderrRawCarry)
    (whole : Whole chunk) : Heard redact (text ++ content chunk) s (s.onData redact chunk) := by
  rw [StandardError.onData]
  split
  · split
    · exact .inr ⟨rfl, rfl⟩
    next rest found => exact heard_resumed whole found
  next short =>
    split
    next discarding =>
      split
      · exact .inr ⟨discarding, rfl⟩
      next rest found => exact heard_resumed whole found
    next open_ =>
      have open_ : s.stderrDiscardUntilWhitespace = false := by simpa using open_
      rw [bounded_all short]
      exact heard_combine open_ ((clean open_).extend _)

end Listening

variable {stop : Nat}

section Runs

theorem received_append (front back : List Event) : received (front ++ back) = received front ++ received back :=
  List.flatMap_append

theorem received_snoc (events : List Event) (event : Event) :
    received (events ++ [event]) = received events ++ contentOf event := by
  rw [received_append]
  exact congrArg _ (List.append_nil _)

theorem piece_extend (bound : stop ≤ text.length) (more : Utf16) (start : Nat) :
    piece (text ++ more) start stop = piece text start stop := by
  rw [piece, List.take_append_of_le_length bound, piece]

variable {events : List Event}

theorem chunkEnd_le (ends : ChunkEnd events stop) : stop ≤ (received events).length := by
  obtain ⟨before, chunk, rest, rfl, rfl⟩ := ends
  rw [List.append_cons before _ rest, received_append (before ++ [_]), List.length_append]
  omega

theorem ChunkEnd.extend (ends : ChunkEnd events stop) (more : List Event) :
    ChunkEnd (events ++ more) stop := by
  obtain ⟨before, chunk, rest, rfl, is⟩ := ends
  exact ⟨before, chunk, rest ++ more, by rw [List.append_assoc, List.cons_append], is⟩

/-- The tail is a redacted part of the text that was received when it was made. -/
def Shown (redact : Utf16 → Utf16) (events : List Event) (tail : Utf16) : Prop :=
  tail = [] ∨ ∃ start stop, Begins (received events) start ∧ ChunkEnd events stop ∧
    tail = redact (piece (received events) start stop)

theorem Shown.extend {redact : Utf16 → Utf16} {tail : Utf16}
    (shown : Shown redact events tail) (more : List Event) : Shown redact (events ++ more) tail := by
  rcases shown with empty | ⟨start, stop, begins, ends, is⟩
  · exact .inl empty
  · refine .inr ⟨start, stop, ?_, ends.extend more, ?_⟩
    · rw [received_append]
      exact begins.extend _
    · rw [received_append, piece_extend (chunkEnd_le ends), is]

theorem after_snoc (redact : Utf16 → Utf16) (events : List Event) (event : Event) :
    after redact (events ++ [event]) = step redact (after redact events) event := by
  rw [after, List.foldl_append]
  rfl

theorem WellCut.front {events more : List Event} (cut : WellCut (events ++ more)) : WellCut events := by
  intro before event rest is
  exact cut before event (rest ++ more) (by rw [is, List.append_assoc, List.cons_append])

/-- What is carried until a close, and what is shown ever after. -/
theorem run_shown (redact : Utf16 → Utf16) (events : List Event) (cut : WellCut events) :
    (.close ∉ events → (after redact events).stderrDiscardUntilWhitespace = false →
      Clean (received events) (after redact events).stderrRawCarry) ∧
    Shown redact events (after redact events).stderrTail := by
  induction events using List.reverseRecOn with
  | nil => exact ⟨fun _ _ => ⟨0, .inl rfl, Nat.zero_le _, rfl⟩, .inl rfl⟩
  | append_singleton events event ih =>
    obtain ⟨carried, shown⟩ := ih cut.front
    rw [after_snoc]
    cases event with
    | close => exact ⟨fun open_ => absurd (List.mem_append_right _ List.mem_cons_self) open_, shown.extend _⟩
    | data chunk =>
      obtain ⟨open_, whole, -⟩ := cut events (.data chunk) [] rfl
      have heard : Heard redact _ _ _ := heard_onData (carried open_) whole
      rcases heard with ⟨_, clean, tail⟩ | ⟨discarding, tail⟩
      · refine ⟨fun _ _ => received_snoc events (.data chunk) ▸ clean, .inr ?_⟩
        obtain ⟨start, begins, bound, is⟩ := clean
        refine ⟨start, _, received_snoc events (.data chunk) ▸ begins, ⟨events, chunk, [], rfl, rfl⟩, ?_⟩
        change (StandardError.onData redact _ chunk).stderrTail = _
        rw [tail, is, piece, List.take_length, received_snoc]
        rfl
      · refine ⟨fun _ off => ?_, ?_⟩
        · change (StandardError.onData redact _ chunk).stderrDiscardUntilWhitespace = false at off
          rw [discarding] at off
          cases off
        · change Shown redact _ (StandardError.onData redact _ chunk).stderrTail
          rw [tail]
          exact shown.extend _

/-- In every run whose chunks cut no session cookie before its signature and no character, and bring nothing
after the connection was closed, the tail shows no credential of the text, also not of what is received
later. That one redaction removes the credentials of the part it is given is assumed. -/
theorem tail_redacted (events later : List Event) (cut : WellCut events)
    (assumed : ∀ start stop, Begins (received (events ++ later)) start → ChunkEnd events stop →
      Removes (piece (received (events ++ later)) start stop)) :
    Safe (received (events ++ later)) events := by
  rcases (run_shown redactModernCredential events cut).2 with empty | ⟨start, stop, begins, ends, is⟩
  · exact .inl empty
  · have begins' : Begins (received (events ++ later)) start := by
      rw [received_append]
      exact begins.extend _
    have same : piece (received (events ++ later)) start stop = piece (received events) start stop := by
      rw [received_append, piece_extend (chunkEnd_le ends)]
    refine .inr ⟨start, stop, begins', ends, by rw [same, is], fun unit index member credential => ?_⟩
    have inside : index < (piece (received (events ++ later)) start stop).length :=
      (List.getElem?_eq_some_iff.1 (traced_origin member)).1
    rw [piece_length] at inside
    refine assumed start stop begins' ends unit index member
      (credential_piece begins' ?_ (by omega) credential)
    obtain ⟨before, chunk, rest, rfl, rfl⟩ := ends
    have finished := (cut before (.data chunk) rest rfl).2.2
    have front : received (before ++ .data chunk :: rest ++ later) =
        received (before ++ [.data chunk]) ++ received (rest ++ later) := by
      rw [← received_append]
      simp
    rwa [front, List.take_left]

end Runs

/-- Whether a unit belongs to a credential, place by place. -/
def credentialAt (text : Utf16) (index : Nat) : Bool :=
  (List.range (index + 1)).any fun start =>
    [findToken (text.drop start), findCookie (text.drop start)].any fun found =>
      found.any fun lengths => start + lengths.1 ≤ index && index < start + lengths.1 + lengths.2

theorem credentialAt_iff {index : Nat} : credentialAt text index = true ↔ Credential text index := by
  simp only [credentialAt, List.any_eq_true, List.mem_range, List.mem_cons, List.not_mem_nil, or_false,
    Option.any_eq_true, Bool.and_eq_true, decide_eq_true_eq, Credential, Found]
  constructor
  · rintro ⟨start, _, _, rfl | rfl, ⟨keep, dropped⟩, found, low, high⟩
    · exact ⟨start, keep, dropped, .inl found, low, high⟩
    · exact ⟨start, keep, dropped, .inr found, low, high⟩
  · rintro ⟨start, keep, dropped, token | cookie, low, high⟩
    · exact ⟨start, by omega, _, .inl rfl, (keep, dropped), token, low, high⟩
    · exact ⟨start, by omega, _, .inr rfl, (keep, dropped), cookie, low, high⟩

theorem removes_of_all (all : (traced text).all (fun entry =>
    entry.2.all fun index => !credentialAt text index) = true) : Removes text := by
  intro unit index member credential
  have kept := List.all_eq_true.1 all _ member
  rw [Option.all_some, credentialAt_iff.2 credential] at kept
  cases kept

/-- A run of one chunk ends where it does. -/
theorem chunkEnd_single (ends : ChunkEnd [.data chunk] stop) : stop = (content chunk).length := by
  obtain ⟨before, other, rest, is, rfl⟩ := ends
  cases before with
  | nil =>
    cases is
    exact congrArg List.length (List.append_nil _)
  | cons => simp at is

/-- A text without white space has one beginning. -/
theorem begins_only (visible : text.all (fun unit => !isWhiteSpace unit) = true) {start : Nat}
    (begins : Begins text start) : start = 0 := by
  rcases begins with zero | ⟨unit, before, space⟩
  · exact zero
  · have seen := visible_all visible unit (List.mem_of_getElem? before)
    rw [space] at seen
    cases seen

def cookieStart : Event := .data (.text (Utf16.ofString "dsh-auth-x=v1.a"))
def cookieEnd : Event := .data (.text (Utf16.ofString ".b"))

/-- A chunk ends inside of a session cookie: the tail shows its payload, though the redaction of the text so
far, which holds no cookie yet, is without fault. -/
theorem cookie_cut_shown :
    (∀ start stop, Begins (received ([cookieStart] ++ [cookieEnd])) start → ChunkEnd [cookieStart] stop →
      Removes (piece (received ([cookieStart] ++ [cookieEnd])) start stop)) ∧
    ¬ Safe (received ([cookieStart] ++ [cookieEnd])) [cookieStart] := by
  have visible : (received ([cookieStart] ++ [cookieEnd])).all (fun unit => !isWhiteSpace unit) = true := by
    decide +kernel
  refine ⟨fun start stop begins ends => ?_, ?_⟩
  · rw [begins_only visible begins, chunkEnd_single ends]
    exact removes_of_all (by decide +kernel)
  · rintro (empty | ⟨start, stop, begins, ends, _, hidden⟩)
    · revert empty
      decide +kernel
    · rw [begins_only visible begins, chunkEnd_single ends] at hidden
      exact hidden 0x76 11 (by decide +kernel) (credentialAt_iff.1 (by decide +kernel))

def tokenStart : Event := .data (.text (Utf16.ofString "a ?token=s"))
def tokenEnd : Event := .data (.text (Utf16.ofString "ecret b"))

/-- A chunk that ends inside of a token shows nothing of it. -/
theorem tail_redacted_token : Safe (received ([tokenStart] ++ [tokenEnd])) [tokenStart] := by
  refine tail_redacted [tokenStart] [tokenEnd] ?_ fun start stop begins ends => ?_
  · intro before event rest is
    cases before with
    | nil =>
      cases is
      refine ⟨List.not_mem_nil, trivial, ?_⟩
      rintro ⟨start, name, payload, shown, same, -⟩
      have letter : (0x64 : UInt16) ∈ cookiePrefix ++ name ++ 0x3D :: shown :=
        List.mem_append_left _ (List.mem_append_left _ (by decide))
      rw [← same] at letter
      exact absurd (List.mem_of_mem_drop letter) (by decide)
    | cons => simp at is
  · have every : ∀ start, start < 11 → (traced (piece (received ([tokenStart] ++ [tokenEnd])) start 10)).all
        (fun entry => entry.2.all fun index =>
          !credentialAt (piece (received ([tokenStart] ++ [tokenEnd])) start 10) index) = true := by
      decide +kernel
    have stop_ : stop = 10 := chunkEnd_single ends
    rw [stop_]
    rcases Nat.lt_or_ge start 11 with low | high
    · exact removes_of_all (every start low)
    · have none : piece (received ([tokenStart] ++ [tokenEnd])) start 10 = [] := by
        rw [piece, List.drop_eq_nil_iff, List.length_take]
        omega
      rw [none]
      exact removes_of_all rfl

end CodexHost.Guarantees.StandardErrorTail
