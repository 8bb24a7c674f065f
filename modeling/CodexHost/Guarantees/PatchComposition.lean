import CodexHost.Source.ProtocolCore.FileChangeSummary

/-!
# Composed patches

What the lines of a hunk read and write, and the composition of patches without the file: the symbolic
lines stand for lines of any file to which the patches apply.
-/
namespace CodexHost.Guarantees.PatchComposition
open Foundation Source.ProtocolCore.FileChangeSummary List Option Function Edit

/-- The edits that the entries of a hunk stand for. A blank line that lost its space is kept. -/
def edits : List Text → List (Edit Text)
  | [] => []
  | entry :: rest =>
    if entry.head? = some '\\' then edits rest
    else if entry.head? = some '+' then .insert (entryText entry rest) :: edits rest
    else if entry = [] ∨ entry.head? = some ' ' then .keep (entryText entry rest) :: edits rest
    else .delete (entryText entry rest) :: edits rest

def patchOf (hunks : List Hunk) : List (Block Text) := hunks.map fun hunk => ⟨hunk.oldStart, edits hunk.lines⟩

/-- The number of entries without an operation. -/
def blanks (hunks : List Hunk) : Nat := (hunks.map fun hunk => hunk.lines.count []).sum

/-- What the `diff` library promises: the counts of a hunk are those of its entries, and the parts of a
comparison lead from the one list to the other. -/
structure Documented (diff : DiffLibrary) : Prop where
  counts : ∀ text patches, diff.parsePatch text = some patches → ∀ patch ∈ patches, ∀ hunk ∈ patch,
    hunk.oldLines = (Edit.old (edits hunk.lines)).length
  script : ∀ same original current, DiffScript (fun a b => same a b = true)
    (diff.diffArrays same original current) original current

variable {entries : List Text}

section Replacement

/-- Values of the line objects that agree with the texts that are known. -/
structure Values (s : Composition) (value : Nat → Text) : Prop where
  texts : ∀ line text, s.texts line = some text → value line = text
  fresh : ∀ line, s.next ≤ line → s.texts line = none

variable {s s' : Composition} {value : Nat → Text}

theorem known_texts (line : Nat) (text : Text) :
    (s.known line text).texts = Function.update s.texts line (some text) := rfl

theorem supply_texts (text : Text) : (s.supply text).texts = Function.update s.texts s.next (some text) := rfl

theorem Values.known (values : Values s value) {line : Nat} {text : Text} (is : value line = text)
    (made : line < s.next) : Values (s.known line text) value where
  texts other text' has := by
    rw [known_texts, update_apply] at has
    split at has
    · rename_i same
      rw [same, is]
      exact Option.some.inj has
    · exact values.texts other text' has
  fresh other later := by
    change s.next ≤ other at later
    rw [known_texts, update_of_ne (by omega)]
    exact values.fresh other later

theorem Values.supply (values : Values s value) (text : Text) :
    Values (s.supply text) (Function.update value s.next text) where
  texts other text' has := by
    rw [supply_texts, update_apply] at has
    rw [update_apply]
    split at has
    · rename_i same
      rw [if_pos same]
      exact Option.some.inj has
    · rename_i apart
      rw [if_neg apart]
      exact values.texts other text' has
  fresh other later := by
    change s.next + 1 ≤ other at later
    rw [supply_texts, update_of_ne (by omega)]
    exact values.fresh other (by omega)

/-- The lines of a hunk are replaced as its edits say. -/
theorem replaceLines_spec {current replaced : List Nat} {back : List Text}
    (ran : replaceLines entries current s = some (replaced, s')) (full : [] ∉ entries)
    (values : Values s value) (made : ∀ line ∈ current, line < s.next)
    (reads : current.map value = Edit.old (edits entries) ++ back) :
    ∃ value', (∀ line < s.next, value' line = value line) ∧ Values s' value' ∧ s.next ≤ s'.next ∧
      s'.original = s.original ∧ replaced.map value' = Edit.new (edits entries) ∧
      ∀ line ∈ replaced, line < s'.next := by
  induction entries generalizing current replaced s value with
  | nil =>
    cases ran
    exact ⟨value, fun _ _ => rfl, values, le_rfl, rfl, rfl, by simp⟩
  | cons entry rest ih =>
    rw [mem_cons, not_or] at full
    rw [replaceLines] at ran
    rw [edits] at reads ⊢
    split at ran
    · rename_i marker
      rw [if_pos marker] at reads ⊢
      exact ih ran full.2 values made reads
    · rename_i marker
      rw [if_neg marker] at reads ⊢
      split at ran
      · rename_i plus
        rw [if_pos plus] at reads ⊢
        obtain ⟨⟨tail, last⟩, others, is⟩ := map_eq_some_iff.mp ran
        cases is
        have same : current.map (Function.update value s.next (entryText entry rest)) = current.map value := by
          refine map_congr_left fun line member => ?_
          rw [update_of_ne (made line member).ne]
        obtain ⟨value', keeps, values', later, original, writes, made'⟩ :=
          ih others full.2 (values.supply _) (fun line member => (made line member).trans (Nat.lt_succ_self _))
            (same.trans reads)
        have next : s.next < last.next := Nat.lt_of_succ_le later
        refine ⟨value', fun line below => ?_, values', next.le, original, ?_, ?_⟩
        · rw [keeps line (below.trans (Nat.lt_succ_self _)), update_of_ne below.ne]
        · rw [map_cons, writes, keeps s.next (Nat.lt_succ_self _), update_self]
          rfl
        · rw [forall_mem_cons]
          exact ⟨next, made'⟩
      · rename_i plus
        rw [if_neg plus] at reads ⊢
        cases current with
        | nil => cases ran
        | cons line current =>
          rw [forall_mem_cons] at made
          dsimp only at ran
          split at ran
          · cases ran
          · obtain ⟨⟨tail, last⟩, others, is⟩ := map_eq_some_iff.mp ran
            cases is
            have ih := fun is reads => ih others full.2 (values.known is made.1) made.2 reads
            split at reads
            · rename_i keep
              rw [if_pos keep]
              have space : entry.head? = some ' ' := keep.resolve_left (Ne.symm full.1)
              obtain ⟨here, others⟩ := List.cons.inj reads
              obtain ⟨value', keeps, values', later, original, writes, made'⟩ := ih here others
              refine ⟨value', keeps, values', later, original, ?_, ?_⟩
              · rw [if_pos space, map_cons, writes, keeps line made.1, here]
                rfl
              · rw [if_pos space, forall_mem_cons]
                exact ⟨made.1.trans_le later, made'⟩
            · rename_i keep
              rw [if_neg keep]
              have space : entry.head? ≠ some ' ' := fun space => keep (.inr space)
              obtain ⟨here, others⟩ := List.cons.inj reads
              obtain ⟨value', keeps, values', later, original, writes, made'⟩ := ih here others
              refine ⟨value', keeps, values', later, original, ?_, ?_⟩
              · rw [if_neg space]
                exact writes
              · rw [if_neg space]
                exact made'

end Replacement

variable {hunks : List Hunk}

section Hunks

/-- The symbolic lines stand for the first lines of the file before and after, and the rest is the same. -/
structure Describes (s : Composition) (value : Nat → Text) (rest before now : List Text) : Prop where
  values : Values s value
  before : before = s.original.map value ++ rest
  now : now = s.current.map value ++ rest
  original : ∀ line ∈ s.original, line < s.next
  current : ∀ line ∈ s.current, line < s.next

variable {s s' : Composition} {value : Nat → Text} {rest before now : List Text}

/-- Unknown lines stand for the next lines of the rest. -/
theorem Describes.extend (describes : Describes s value rest before now) {lines : Nat}
    (within : lines ≤ now.length) :
    ∃ value' rest', Describes (s.extend lines) value' rest' before now ∧
      lines ≤ (s.extend lines).current.length := by
  let count := lines - s.current.length
  let value' := fun line => if line < s.next then value line else rest[line - s.next]?.getD []
  have enough : count ≤ rest.length := by
    have length := congrArg List.length describes.now
    rw [length_append, length_map] at length
    omega
  have old : ∀ {known : List Nat}, (∀ line ∈ known, line < s.next) → known.map value' = known.map value := by
    intro known below
    exact map_congr_left fun line member => if_pos (below line member)
  have unknown : (List.range' s.next count).map value' = rest.take count := by
    refine ext_getElem (by simp [enough]) fun index inside inside' => ?_
    rw [getElem_map, getElem_range', getElem_take]
    have later : ¬ s.next + 1 * index < s.next := by omega
    have at' : s.next + 1 * index - s.next = index := by omega
    have bound : index < rest.length := by
      rw [length_take] at inside'
      omega
    rw [show value' (s.next + 1 * index) = _ from if_neg later, at', getElem?_eq_getElem bound]
    rfl
  have made : ∀ {known : List Nat}, (∀ line ∈ known, line < s.next) →
      ∀ line ∈ known ++ List.range' s.next count, line < (s.extend lines).next := by
    intro known below line member
    change line < s.next + (List.range' s.next count).length
    rw [length_range']
    rcases mem_append.mp member with old | new
    · exact (below line old).trans_le (Nat.le_add_right _ _)
    · exact (mem_range'_1.mp new).2
  refine ⟨value', rest.drop count, ⟨⟨?_, ?_⟩, ?_, ?_, ?_, ?_⟩, ?_⟩
  · intro line text has
    have below : line < s.next := by
      by_contra later
      exact absurd ((describes.values.fresh line (by omega)).symm.trans has) nofun
    exact (if_pos below).trans (describes.values.texts line text has)
  · intro line later
    refine describes.values.fresh line ?_
    change s.next + (List.range' s.next count).length ≤ line at later
    omega
  · change _ = (s.original ++ List.range' s.next count).map value' ++ _
    rw [map_append, old describes.original, unknown, append_assoc, take_append_drop]
    exact describes.before
  · change _ = (s.current ++ List.range' s.next count).map value' ++ _
    rw [map_append, old describes.current, unknown, append_assoc, take_append_drop]
    exact describes.now
  · exact made describes.original
  · exact made describes.current
  · change lines ≤ (s.current ++ List.range' s.next count).length
    rw [length_append, length_range']
    omega

theorem split_front {α : Type} {front back whole rest : List α} (is : whole ++ rest = front ++ back)
    (enough : front.length ≤ whole.length) :
    whole = front ++ whole.drop front.length ∧ back = whole.drop front.length ++ rest := by
  rcases append_eq_append_iff.mp is with ⟨more, rfl, rfl⟩ | ⟨more, rfl, rfl⟩
  · rw [length_append] at enough
    have none : more = [] := length_eq_zero_iff.mp (by omega)
    subst none
    simp
  · simp

theorem composeHunk_spec {hunk : Hunk} {front back : List Text} (ran : composeHunk s hunk = some s')
    (full : [] ∉ hunk.lines) (counts : hunk.oldLines = (Edit.old (edits hunk.lines)).length)
    (start : hunk.oldStart = front.length + 1)
    (describes : Describes s value rest before (front ++ Edit.old (edits hunk.lines) ++ back)) :
    ∃ value' rest', Describes s' value' rest' before (front ++ Edit.new (edits hunk.lines) ++ back) := by
  have within : hunk.oldStart + hunk.oldLines - 1 ≤ (front ++ old (edits hunk.lines) ++ back).length := by
    rw [length_append, length_append]
    omega
  obtain ⟨value, rest, describes, enough⟩ := describes.extend within
  rw [composeHunk] at ran
  generalize s.extend (hunk.oldStart + hunk.oldLines - 1) = s at describes enough ran
  have position : hunk.oldStart ≠ 0 := by omega
  have at' : hunk.oldStart - 1 = front.length := by omega
  rw [if_neg position, if_neg position, at'] at ran
  obtain ⟨⟨replaced, last⟩, replaces, rfl⟩ := map_eq_some_iff.mp ran
  -- The current lines are those in front of the hunk, the lines it reads, and others.
  have now := describes.now.symm
  rw [append_assoc] at now
  obtain ⟨inFront, others⟩ := split_front now (by rw [length_map]; omega)
  obtain ⟨reads, behind⟩ := split_front others.symm (by rw [length_drop, length_map]; omega)
  rw [drop_drop, ← counts] at reads behind
  rw [← map_drop] at inFront reads behind
  have made : ∀ {lines : List Nat}, lines ⊆ s.current → ∀ line ∈ lines, line < s.next :=
    fun inside line member => describes.current line (inside member)
  obtain ⟨value', keeps, values, later, original, writes, made'⟩ := replaceLines_spec replaces full
    describes.values (made (drop_subset _ _)) reads
  have same : ∀ {lines : List Nat}, (∀ line ∈ lines, line < s.next) → lines.map value' = lines.map value :=
    fun below => map_congr_left fun line member => keeps line (below line member)
  have isFront : (s.current.take front.length).map value = front := by
    rw [map_take, inFront, take_left]
  refine ⟨value', rest, ⟨values.texts, values.fresh⟩, ?_, ?_, ?_, ?_⟩
  · change before = last.original.map value' ++ rest
    rw [original, same describes.original]
    exact describes.before
  · change _ = (s.current.take front.length ++ replaced ++ s.current.drop (front.length + hunk.oldLines)).map
      value' ++ rest
    rw [map_append, map_append, same (made (take_subset _ _)), isFront, writes,
      same (made (drop_subset _ _)), behind, append_assoc (front ++ _)]
  · change ∀ line ∈ last.original, line < last.next
    rw [original]
    exact fun line member => (describes.original line member).trans_le later
  · intro line member
    rcases mem_append.mp member with inFront | inBack
    · rcases mem_append.mp inFront with inFront | inside
      · exact (describes.current line (take_subset _ _ inFront)).trans_le later
      · exact made' line inside
    · exact (describes.current line (drop_subset _ _ inBack)).trans_le later

/-- The hunks of a patch, the last one first. -/
theorem composeHunks_spec {front content out : List Text}
    (ran : hunks.reverse.foldlM composeHunk s = some s') (full : ∀ hunk ∈ hunks, [] ∉ hunk.lines)
    (counts : ∀ hunk ∈ hunks, hunk.oldLines = (Edit.old (edits hunk.lines)).length)
    (applied : applyBlocks (front.length + 1) (patchOf hunks) content = some out)
    (describes : Describes s value rest before (front ++ content)) :
    ∃ value' rest', Describes s' value' rest' before (front ++ out) := by
  induction hunks generalizing front content out s' with
  | nil =>
    cases ran
    cases applied
    exact ⟨value, rest, describes⟩
  | cons hunk hunks ih =>
    rw [reverse_cons, foldlM_append] at ran
    obtain ⟨middle, others, last⟩ := bind_eq_some_iff.mp ran
    have last : composeHunk middle hunk = some s' := by simpa using last
    rw [forall_mem_cons] at full counts
    obtain ⟨gap, behind, behind', rfl, start, after, rfl⟩ := applyBlocks_cons.mp applied
    have length : (front ++ gap ++ old (edits hunk.lines)).length + 1 =
        hunk.oldStart + (old (edits hunk.lines)).length := by
      change hunk.oldStart = _ at start
      rw [length_append, length_append]
      omega
    have describes : Describes s value rest before
        (front ++ gap ++ old (edits hunk.lines) ++ behind) := by
      simpa using describes
    obtain ⟨value, rest, describes⟩ := ih others full.2 counts.2 (length ▸ after) describes
    have position : hunk.oldStart = (front ++ gap).length + 1 := by
      rw [length_append]
      change hunk.oldStart = _ at start
      omega
    obtain ⟨value, rest, describes⟩ := composeHunk_spec last full.1 counts.1 position describes
    refine ⟨value, rest, ?_⟩
    simpa using describes

end Hunks

section Patches
variable {diff : DiffLibrary}

/-- The patches of changes, each of which parses as one. -/
def patchesOf (diff : DiffLibrary) (changes : List HostFileChange) : Option (List (List Hunk)) :=
  changes.mapM (onePatch diff)

theorem onePatch_parsed {change : HostFileChange} (is : onePatch diff change = some hunks) :
    diff.parsePatch change.unifiedDiff = some [hunks] := by
  rw [onePatch] at is
  split at is
  · rename_i patch parsed
    cases is
    exact parsed
  · cases is

theorem patchesOf_cons {change : HostFileChange} {changes : List HostFileChange} {patches : List (List Hunk)}
    (is : patchesOf diff (change :: changes) = some patches) :
    ∃ patch others, onePatch diff change = some patch ∧ patchesOf diff changes = some others ∧
      patches = patch :: others := by
  rw [patchesOf, mapM_cons] at is
  obtain ⟨patch, here, is⟩ := bind_eq_some_iff.mp is
  obtain ⟨others, there, is⟩ := bind_eq_some_iff.mp is
  cases is
  exact ⟨patch, others, here, there, rfl⟩

theorem blanks_eq_zero : blanks hunks = 0 ↔ ∀ hunk ∈ hunks, [] ∉ hunk.lines := by
  induction hunks with
  | nil => simp [blanks]
  | cons hunk hunks ih =>
    rw [forall_mem_cons, ← ih, ← count_eq_zero, blanks, map_cons, sum_cons, Nat.add_eq_zero_iff]
    rfl

/-- The symbolic files after patches that apply. -/
theorem composeChanges_spec (documented : Documented diff) {changes : List HostFileChange}
    {patches : List (List Hunk)} (parsed : patchesOf diff changes = some patches) {s s' : Composition}
    (ran : changes.foldlM (composeChange diff) s = some s')
    (full : ∀ patch ∈ patches, blanks patch = 0) {before now final : List Text}
    (applied : applyAll (patches.map patchOf) now = some final) {value : Nat → Text} {rest : List Text}
    (describes : Describes s value rest before now) :
    ∃ value' rest', Describes s' value' rest' before final := by
  induction changes generalizing patches s now value rest with
  | nil =>
    cases parsed
    cases ran
    cases applied
    exact ⟨value, rest, describes⟩
  | cons change changes ih =>
    obtain ⟨patch, others, here, there, rfl⟩ := patchesOf_cons parsed
    obtain ⟨middle, first, later⟩ := bind_eq_some_iff.mp ran
    obtain ⟨next, applies, after⟩ := bind_eq_some_iff.mp applied
    rw [forall_mem_cons] at full
    rw [composeChange, here] at first
    have counts := documented.counts _ _ (onePatch_parsed here) patch (by simp)
    have inFront : applyBlocks (([] : List Text).length + 1) (patchOf patch) now = some next := applies
    obtain ⟨value, rest, describes⟩ := composeHunks_spec first (blanks_eq_zero.mp full.1) counts inFront describes
    exact ih there later full.2 after describes

end Patches

section Composed
variable {texts : Nat → Option Text} {value : Nat → Text}

theorem edits_append {front back : List Text} (unmarked : marksEnd back = false) :
    edits (front ++ back) = edits front ++ edits back := by
  induction front with
  | nil => rfl
  | cons entry rest ih =>
    have same : entryText entry (rest ++ back) = entryText entry rest := by
      cases rest with
      | nil => rw [entryText, entryText, nil_append, unmarked]; rfl
      | cons next rest => rfl
    rw [cons_append, edits, edits, same, ih]
    split
    · rfl
    · split
      · rfl
      · split <;> rfl

variable {lines : List Nat}

/-- The edits of lines that are all removed, or all added. -/
theorem edits_entriesOf {operation : Char} {edit : Text → Edit Text}
    (is : ∀ entry rest, edits ((operation :: entry) :: rest) = edit (entryText (operation :: entry) rest) :: edits rest)
    (unmarked : operation ≠ '\\') (agrees : ∀ line text, texts line = some text → value line = text) (written : entriesOf operation texts lines = some entries) :
    marksEnd entries = false ∧ edits entries = lines.map fun line => edit (value line) := by
  induction lines generalizing entries with
  | nil =>
    cases written
    exact ⟨rfl, rfl⟩
  | cons line rest ih =>
    rw [entriesOf] at written
    split at written
    · cases written
    · rename_i text has
      obtain ⟨others, writes, rfl⟩ := map_eq_some_iff.mp written
      obtain ⟨unmarkedRest, editsRest⟩ := ih writes
      have isText := agrees line text has
      split
      · rename_i ends
        refine ⟨by simp [marksEnd, unmarked], ?_⟩
        have whole : entryText (operation :: text.dropLast) others = text := by
          rw [entryText, unmarkedRest]
          exact dropLast_append_getLast? '\n' ends
        rw [is, whole, editsRest, map_cons, isText]
      · refine ⟨by simp [marksEnd, unmarked], ?_⟩
        have marked : edits (noNewline :: others) = edits others := by
          rw [edits, if_pos (by decide)]
        have whole : entryText (operation :: text) (noNewline :: others) = text := by
          exact append_nil text
        rw [is, whole, marked, editsRest, map_cons, isText]

section
variable (agrees : ∀ line text, texts line = some text → value line = text)
include agrees

theorem removed_entriesOf (written : entriesOf '-' texts lines = some entries) :
    marksEnd entries = false ∧ edits entries = lines.map fun line => Edit.delete (value line) :=
  edits_entriesOf (fun _ _ => by simp [edits]) (by decide) agrees written

theorem added_entriesOf (written : entriesOf '+' texts lines = some entries) :
    marksEnd entries = false ∧ edits entries = lines.map fun line => Edit.insert (value line) :=
  edits_entriesOf (fun _ _ => by simp [edits]) (by decide) agrees written

end

theorem old_removed (lines : List Nat) (value : Nat → Text) :
    Edit.old (lines.map fun line => Edit.delete (value line)) = lines.map value ∧
      Edit.new (lines.map fun line => Edit.delete (value line)) = [] := by
  induction lines with
  | nil => exact ⟨rfl, rfl⟩
  | cons line rest ih => exact ⟨congrArg (value line :: ·) ih.1, ih.2⟩

theorem new_added (lines : List Nat) (value : Nat → Text) :
    Edit.old (lines.map fun line => Edit.insert (value line)) = [] ∧
      Edit.new (lines.map fun line => Edit.insert (value line)) = lines.map value := by
  induction lines with
  | nil => exact ⟨rfl, rfl⟩
  | cons line rest ih => exact ⟨ih.1, congrArg (value line :: ·) ih.2⟩

/-- The hunks of a comparison lead from the one file to the other. An open hunk has read and written the
lines in front. -/
theorem hunksOf_spec (agrees : ∀ line text, texts line = some text → value line = text)
    {same : Nat → Nat → Prop} (equal : ∀ a b, same a b → value a = value b) {parts : List (DiffPart Nat)}
    {before after : List Nat} (script : DiffScript same parts before after) {oldStart newStart : Nat} {rest : List Text} :
    (hunksOf texts parts oldStart newStart none = some hunks →
      applyBlocks oldStart (patchOf hunks) (before.map value ++ rest) = some (after.map value ++ rest)) ∧
    ∀ hunk : Hunk, hunksOf texts parts oldStart newStart (some hunk) = some hunks →
      oldStart = hunk.oldStart + (Edit.old (edits hunk.lines)).length →
      applyBlocks hunk.oldStart (patchOf hunks) (Edit.old (edits hunk.lines) ++ before.map value ++ rest) =
        some (Edit.new (edits hunk.lines) ++ after.map value ++ rest) := by
  induction script generalizing oldStart newStart hunks with
  | nil =>
    refine ⟨fun written => ?_, fun hunk written start => ?_⟩
    · cases written
      rfl
    · cases written
      exact applyBlocks_cons.mpr ⟨[], rest, rest, by simp, rfl, rfl, by simp⟩
  | @common parts before after front front' pairs script ih =>
    have lines : front.map value = front'.map value := by
      induction pairs with
      | nil => rfl
      | cons pair pairs ih => rw [map_cons, map_cons, equal _ _ pair, ih]
    have behind : ∀ {hunks}, hunksOf texts parts (oldStart + front.length) (newStart + front.length) none =
        some hunks → applyBlocks oldStart (patchOf hunks) ((front ++ before).map value ++ rest) =
          some ((front' ++ after).map value ++ rest) := by
      intro hunks written
      have applied := ih.1 written
      rw [← length_map (f := value)] at applied
      rw [map_append, map_append, ← lines, append_assoc, append_assoc]
      exact applyBlocks_gap applied
    refine ⟨fun written => ?_, fun hunk written start => ?_⟩
    · obtain ⟨others, later, rfl⟩ := map_eq_some_iff.mp written
      exact behind later
    · obtain ⟨others, later, rfl⟩ := map_eq_some_iff.mp written
      refine applyBlocks_cons.mpr ⟨[], _, _, ?_, rfl, start ▸ behind later, ?_⟩
      · simp
      · simp
  | @removed parts before after lines script ih =>
    have continued : ∀ (hunk : Hunk) {hunks}, (entriesOf '-' texts lines).bind (fun entries =>
          hunksOf texts parts (oldStart + lines.length) newStart
            (some { hunk with oldLines := hunk.oldLines + lines.length, lines := hunk.lines ++ entries })) =
        some hunks → oldStart = hunk.oldStart + (old (edits hunk.lines)).length →
        applyBlocks hunk.oldStart (patchOf hunks)
          (old (edits hunk.lines) ++ (lines ++ before).map value ++ rest) =
            some (new (edits hunk.lines) ++ after.map value ++ rest) := by
      intro hunk hunks written start
      obtain ⟨entries, isEntries, later⟩ := bind_eq_some_iff.mp written
      obtain ⟨unmarked, removes⟩ := removed_entriesOf agrees isEntries
      obtain ⟨reads, writes⟩ := old_removed lines value
      have applied := ih.2 _ later (by
        dsimp only
        rw [edits_append unmarked, removes, old_append, reads, length_append, length_map]
        omega)
      rw [edits_append unmarked, removes, old_append, new_append, reads, writes, append_nil]
        at applied
      rw [map_append, ← append_assoc]
      exact applied
    exact ⟨fun written => continued ⟨oldStart, 0, newStart, 0, []⟩ written rfl,
      fun hunk written start => continued hunk written start⟩
  | @added parts before after lines script ih =>
    have continued : ∀ (hunk : Hunk) {hunks}, (entriesOf '+' texts lines).bind (fun entries =>
          hunksOf texts parts oldStart (newStart + lines.length)
            (some { hunk with newLines := hunk.newLines + lines.length, lines := hunk.lines ++ entries })) =
        some hunks → oldStart = hunk.oldStart + (old (edits hunk.lines)).length →
        applyBlocks hunk.oldStart (patchOf hunks) (old (edits hunk.lines) ++ before.map value ++ rest) =
          some (new (edits hunk.lines) ++ (lines ++ after).map value ++ rest) := by
      intro hunk hunks written start
      obtain ⟨entries, isEntries, later⟩ := bind_eq_some_iff.mp written
      obtain ⟨unmarked, adds⟩ := added_entriesOf agrees isEntries
      obtain ⟨reads, writes⟩ := new_added lines value
      have applied := ih.2 _ later (by
        rw [edits_append unmarked, adds, old_append, reads, append_nil]
        exact start)
      rw [edits_append unmarked, adds, old_append, new_append, reads, writes, append_nil] at applied
      rw [map_append, ← append_assoc]
      exact applied
    exact ⟨fun written => continued ⟨oldStart, 0, newStart, 0, []⟩ written rfl,
      fun hunk written start => continued hunk written start⟩

end Composed

end CodexHost.Guarantees.PatchComposition
