import CodexHost.Guarantees.PatchComposition

/-!
# Summaries of file changes

A composed patch leads from every file to which the patches apply to the same final file, exactly when no
entry of the patches has lost its operation: the code takes such a blank line for a removed one. There is
one summary entry for each path, and only changes that lead back are dropped.
-/
namespace CodexHost.Guarantees.PatchComposition
open Foundation Source.ProtocolCore.FileChangeSummary OrderedMap List Option Nat

variable {hunks : List Hunk} {changes : List HostFileChange} {patches : List (List Hunk)}

section Lengths
variable {s s' : Composition}

/-- A blank entry reads a line, and writes none. -/
theorem replaceLines_length {entries : List Text} {current replaced : List Nat}
    (ran : replaceLines entries current s = some (replaced, s')) :
    replaced.length + entries.count [] = (Edit.new (edits entries)).length ∧ s'.original = s.original := by
  induction entries generalizing current replaced s with
  | nil =>
    cases ran
    exact ⟨rfl, rfl⟩
  | cons entry rest ih =>
    rw [replaceLines] at ran
    rw [edits]
    split at ran
    · rename_i marker
      have full : entry ≠ [] := fun empty => by simp [empty] at marker
      rw [if_pos marker, count_cons_of_ne full]
      exact ih ran
    · rename_i marker
      rw [if_neg marker]
      split at ran
      · rename_i plus
        have full : entry ≠ [] := fun empty => by simp [empty] at plus
        obtain ⟨⟨tail, last⟩, others, is⟩ := map_eq_some_iff.mp ran
        cases is
        obtain ⟨length, original⟩ := ih others
        rw [if_pos plus, count_cons_of_ne full, length_cons, Edit.new, length_cons, ← length]
        exact ⟨add_right_comm .., original⟩
      · rename_i plus
        rw [if_neg plus]
        cases current with
        | nil => cases ran
        | cons line current =>
          dsimp only at ran
          split at ran
          · cases ran
          · obtain ⟨⟨tail, last⟩, others, is⟩ := map_eq_some_iff.mp ran
            cases is
            obtain ⟨length, original⟩ := ih others
            refine ⟨?_, original⟩
            by_cases blank : entry = []
            · subst blank
              rw [if_pos (Or.inl rfl), if_neg (by simp), count_cons_self, Edit.new, length_cons, ← length]
              dsimp only
              omega
            · rw [count_cons_of_ne blank]
              by_cases space : entry.head? = some ' '
              · rw [if_pos space, if_pos (Or.inr space), length_cons, Edit.new, length_cons, ← length]
                exact add_right_comm ..
              · rw [if_neg space, if_neg (by simp [blank, space]), Edit.new]
                exact length

/-- How much longer the current file is than the original one. -/
def surplus (s : Composition) : Int := (s.current.length : Int) - s.original.length

theorem composeHunk_surplus {hunk : Hunk} (ran : composeHunk s hunk = some s') (start : 1 ≤ hunk.oldStart)
    (counts : hunk.oldLines = (Edit.old (edits hunk.lines)).length) :
    surplus s' = surplus s + gain (patchOf [hunk]) - blanks [hunk] := by
  have extended : surplus (s.extend (hunk.oldStart + hunk.oldLines - 1)) = surplus s ∧
      hunk.oldStart + hunk.oldLines - 1 ≤ (s.extend (hunk.oldStart + hunk.oldLines - 1)).current.length := by
    simp only [surplus, Composition.extend, length_append, length_range']
    omega
  rw [composeHunk] at ran
  generalize s.extend (hunk.oldStart + hunk.oldLines - 1) = middle at extended ran
  rw [if_neg (by omega), if_neg (by omega)] at ran
  obtain ⟨⟨replaced, last⟩, replaces, rfl⟩ := map_eq_some_iff.mp ran
  obtain ⟨length, original⟩ := replaceLines_length replaces
  have gained : gain (patchOf [hunk]) = (Edit.new (edits hunk.lines)).length - (hunk.oldLines : Int) := by
    simp [gain, patchOf, counts]
  have blank : blanks [hunk] = hunk.lines.count [] := by simp [blanks]
  rw [← extended.1, gained, blank]
  simp only [surplus, original, length_append, length_take, length_drop]
  omega

theorem composeHunks_surplus (ran : hunks.reverse.foldlM composeHunk s = some s')
    (starts : ∀ hunk ∈ hunks, 1 ≤ hunk.oldStart)
    (counts : ∀ hunk ∈ hunks, hunk.oldLines = (Edit.old (edits hunk.lines)).length) :
    surplus s' = surplus s + gain (patchOf hunks) - blanks hunks := by
  induction hunks generalizing s' with
  | nil =>
    cases ran
    simp [patchOf, gain, blanks]
  | cons hunk hunks ih =>
    rw [forall_mem_cons] at starts counts
    rw [reverse_cons, foldlM_append] at ran
    obtain ⟨middle, others, last⟩ := bind_eq_some_iff.mp ran
    have last : composeHunk middle hunk = some s' := by simpa using last
    have here := composeHunk_surplus last starts.1 counts.1
    have there := ih others starts.2 counts.2
    simp only [patchOf, gain, blanks, map_cons, sum_cons, map_nil, sum_nil] at here there ⊢
    omega

/-- A hunk that applies starts at a line. -/
theorem starts_of_applied {line : Nat} {content out : List Text}
    (applied : applyBlocks line (patchOf hunks) content = some out) (first : 1 ≤ line) :
    ∀ hunk ∈ hunks, 1 ≤ hunk.oldStart := by
  induction hunks generalizing line content out with
  | nil => simp
  | cons hunk hunks ih =>
    obtain ⟨gap, rest, rest', -, start, after, -⟩ := applyBlocks_cons.mp applied
    change hunk.oldStart = line + gap.length at start
    rw [forall_mem_cons]
    exact ⟨by omega, ih after (by dsimp only; omega)⟩

variable {diff : DiffLibrary}

/-- The symbolic files differ in length as the files do, less the blank entries. -/
theorem composeChanges_surplus (documented : Documented diff) (parsed : patchesOf diff changes = some patches)
    (ran : changes.foldlM (composeChange diff) s = some s') {now final : List Text}
    (applied : applyAll (patches.map patchOf) now = some final) :
    (final.length : Int) = now.length + (surplus s' - surplus s) + (patches.map blanks).sum := by
  induction changes generalizing patches s now with
  | nil =>
    cases parsed
    cases ran
    cases applied
    simp
  | cons change changes ih =>
    obtain ⟨patch, others, here, there, rfl⟩ := patchesOf_cons parsed
    obtain ⟨middle, first, later⟩ := bind_eq_some_iff.mp ran
    obtain ⟨next, applies, after⟩ := bind_eq_some_iff.mp applied
    rw [composeChange, here] at first
    have step := composeHunks_surplus first (starts_of_applied applies le_rfl)
      (documented.counts _ _ (onePatch_parsed here) patch (by simp))
    have rest := ih there later after
    have length := applyBlocks_length applies
    rw [map_cons, sum_cons]
    omega

end Lengths

section Summaries
variable {diff : DiffLibrary}

/-- The lines with unknown texts are the same before and after, so any value does for them. -/
theorem hunksOf_gain (documented : Documented diff) {s : Composition}
    (written : hunksOf s.texts (diff.diffArrays (sameLine s.texts) s.original s.current) 1 1 none =
      some hunks) : gain (patchOf hunks) = surplus s := by
  let value := fun line => (s.texts line).getD []
  have agrees : ∀ line text, s.texts line = some text → value line = text := by
    intro line text has
    exact congrArg (Option.getD · []) has
  have equal : ∀ a b, sameLine s.texts a b = true → value a = value b := by
    intro a b same
    simp only [sameLine, Bool.or_eq_true, decide_eq_true_eq, Bool.and_eq_true] at same
    rcases same with rfl | ⟨-, texts⟩
    · rfl
    · exact congrArg (Option.getD · []) texts
  have applied : applyBlocks 1 (patchOf hunks) (s.original.map value ++ []) = some (s.current.map value ++ []) :=
    (hunksOf_spec agrees equal (documented.script _ s.original s.current)).1 written
  have length := applyBlocks_length applied
  simp only [append_nil, length_map] at length
  rw [surplus]
  omega

/-- Every entry of the patches still has its operation. -/
def Marked (patches : List (List Hunk)) : Prop := ∀ patch ∈ patches, ∀ hunk ∈ patch, [] ∉ hunk.lines

theorem marked_iff : Marked patches ↔ (patches.map blanks).sum = 0 := by
  induction patches with
  | nil => simp [Marked]
  | cons patch patches ih =>
    rw [Marked, forall_mem_cons, map_cons, sum_cons, Nat.add_eq_zero_iff, blanks_eq_zero]
    exact and_congr_right fun _ => ih

/-- Where the patches apply one after the other, the composed patch leads to the same file exactly when every
entry has its operation. -/
theorem composePatches_spec (documented : Documented diff) {content final : List Text}
    (composed : composePatches diff changes = some hunks) (parsed : patchesOf diff changes = some patches)
    (applied : applyAll (patches.map patchOf) content = some final) :
    applyBlocks 1 (patchOf hunks) content = some final ↔ Marked patches := by
  rw [composePatches] at composed
  split at composed
  · cases composed
  · obtain ⟨s, ran, written⟩ := bind_eq_some_iff.mp composed
    constructor
    · intro same
      have length := applyBlocks_length same
      have lengths := composeChanges_surplus documented parsed ran applied
      have gained := hunksOf_gain documented written
      have none : surplus .initial = 0 := rfl
      rw [marked_iff]
      omega
    · intro marked
      have full : ∀ patch ∈ patches, blanks patch = 0 := fun patch member => blanks_eq_zero.mpr (marked patch member)
      have describes : Describes .initial (fun _ => []) content content content :=
        ⟨⟨nofun, fun _ _ => rfl⟩, rfl, rfl, nofun, nofun⟩
      obtain ⟨value, rest, values, before, now, -, -⟩ :=
        composeChanges_spec documented parsed ran full applied describes
      have equal : ∀ a b, sameLine s.texts a b = true → value a = value b := by
        intro a b same
        simp only [sameLine, Bool.or_eq_true, decide_eq_true_eq, Bool.and_eq_true] at same
        rcases same with rfl | ⟨supplied, texts⟩
        · rfl
        · obtain ⟨text, has⟩ := isSome_iff_exists.mp supplied
          rw [values.texts a text has, values.texts b text (texts ▸ has)]
      have leads : applyBlocks 1 (patchOf hunks) (s.original.map value ++ rest) =
          some (s.current.map value ++ rest) :=
        (hunksOf_spec values.texts equal (documented.script _ s.original s.current)).1 written
      rwa [← before, ← now] at leads

/-- The changes of the path with a key. -/
def changesAt (paths : Paths) (cwd : Text) (changes : List HostFileChange) (key : Text) : List HostFileChange :=
  changes.filter fun change => filePathKey paths change.path cwd = key

theorem get?_groupsOf (paths : Paths) (changes : List HostFileChange) (cwd key : Text) :
    (groupsOf paths changes cwd).get? key =
      if changesAt paths cwd changes key = [] then none else some (changesAt paths cwd changes key) := by
  induction changes using List.reverseRecOn with
  | nil => rfl
  | append_singleton changes change ih =>
    have last : groupsOf paths (changes ++ [change]) cwd =
        (groupsOf paths changes cwd).set (filePathKey paths change.path cwd)
          (((groupsOf paths changes cwd).get? (filePathKey paths change.path cwd)).getD [] ++ [change]) := by
      rw [groupsOf, foldl_append]
      rfl
    rw [last, get?_set]
    by_cases same : key = filePathKey paths change.path cwd
    · subst same
      have grown : changesAt paths cwd (changes ++ [change]) (filePathKey paths change.path cwd) =
          changesAt paths cwd changes (filePathKey paths change.path cwd) ++ [change] := by
        simp [changesAt]
      have full := append_ne_nil_of_right_ne_nil
        (changesAt paths cwd changes (filePathKey paths change.path cwd)) (cons_ne_nil change [])
      rw [if_pos rfl, ih, grown, if_neg full]
      split
      · rename_i none
        rw [none]
        rfl
      · rfl
    · have stays : changesAt paths cwd (changes ++ [change]) key = changesAt paths cwd changes key := by
        simp [changesAt, Ne.symm same]
      rw [if_neg same, ih, stays]

variable {group : List HostFileChange}

/-- An entry has the path of its first change. -/
theorem summarizeGroup_path {entry : HostFileChange}
    (member : entry ∈ summarizeGroup diff group) : ∃ change ∈ group, entry.path = change.path := by
  cases group with
  | nil => cases member
  | cons first rest =>
    refine ⟨first, mem_cons_self .., ?_⟩
    cases rest with
    | nil =>
      rw [mem_singleton.mp member]
    | cons second rest =>
      rw [summarizeGroup] at member
      · split at member
        · split at member
          · cases member
          · rw [mem_singleton.mp member]
        · rw [mem_singleton.mp member]
      · exact nofun

theorem summarizeGroup_single (group : List HostFileChange) : (summarizeGroup diff group).length ≤ 1 := by
  rw [summarizeGroup.eq_def]
  split
  · exact zero_le 1
  · exact le_rfl
  · dsimp only
    split
    · split
      · exact zero_le 1
      · exact le_rfl
    · exact le_rfl

/-- The changes lead from an existing file to an existing one, or from none to none. -/
def KeepsExistence (group : List HostFileChange) : Prop :=
  ∀ first last, group.head? = some first → group.getLast? = some last →
    ((first.kind ≠ .add) ↔ (last.kind ≠ .delete))

theorem summarizeGroup_nil (none : summarizeGroup diff group = [])
    (some : group ≠ []) : KeepsExistence group ∧ composePatches diff group = .some [] := by
  cases group with
  | nil => exact absurd rfl some
  | cons first rest =>
    cases rest with
    | nil => cases none
    | cons second rest =>
      rw [summarizeGroup] at none
      · split at none
        · rename_i hunks composed
          split at none
          · rename_i dropped
            refine ⟨?_, composed.trans (congrArg _ (length_eq_zero_iff.mp dropped.1))⟩
            intro a b isFirst isLast
            cases isFirst
            have dropped := dropped.2
            rw [getLast?_cons_cons] at isLast
            rw [isLast] at dropped
            exact dropped
          · cases none
        · cases none
      · exact nofun

/-- The groups have the keys of the changes, and an entry has the key of its group. -/
theorem summarizeGroup_key {paths : Paths} {cwd : Text} {key : Text} (is : (key, group) ∈ (groupsOf paths changes cwd).entries)
    {entry : HostFileChange} (member : entry ∈ summarizeGroup diff group) :
    filePathKey paths entry.path cwd = key ∧ group = changesAt paths cwd changes key := by
  rw [mem_entries_iff, get?_groupsOf] at is
  split at is
  · cases is
  · cases is
    obtain ⟨change, inGroup, path⟩ := summarizeGroup_path member
    rw [path]
    exact ⟨of_decide_eq_true (mem_filter.mp inGroup).2, rfl⟩

/-- At most one entry of every group: the keys of the entries are some of the keys of the groups. -/
theorem summary_keys {paths : Paths} {cwd : Text} {groups : List (Text × List HostFileChange)}
    (keyed : ∀ key group, (key, group) ∈ groups → ∀ entry ∈ summarizeGroup diff group,
      filePathKey paths entry.path cwd = key) :
    List.Sublist (((groups.map Prod.snd).flatMap (summarizeGroup diff)).map fun entry =>
      filePathKey paths entry.path cwd) (groups.map Prod.fst) := by
  induction groups with
  | nil => exact List.Sublist.slnil
  | cons group groups ih =>
    obtain ⟨key, group⟩ := group
    have others := ih fun key group member => keyed key group (mem_cons_of_mem _ member)
    have here := keyed key group (mem_cons_self ..)
    have single : (summarizeGroup diff group).length ≤ 1 := summarizeGroup_single group
    rw [map_cons, map_cons, flatMap_cons, map_append]
    cases made : summarizeGroup diff group with
    | nil => exact others.cons _
    | cons entry rest =>
      rw [made] at single here
      have rest : rest = [] := length_eq_zero_iff.mp (le_zero.mp (le_of_succ_le_succ single))
      subst rest
      rw [map_singleton, here entry (mem_cons_self ..)]
      exact others.cons_cons _

/-- One entry for each path; a path has none only where the file exists as before, and has the content
that it had exactly when every entry of the patches has its operation. -/
structure Summarized (diff : DiffLibrary) (paths : Paths) (changes : List HostFileChange) (cwd : Text) : Prop where
  distinct : ((summarizeFileChanges diff paths changes cwd).map fun entry =>
    filePathKey paths entry.path cwd).Nodup
  changed : ∀ entry ∈ summarizeFileChanges diff paths changes cwd,
    ∃ change ∈ changes, filePathKey paths change.path cwd = filePathKey paths entry.path cwd
  dropped : ∀ change ∈ changes, let key := filePathKey paths change.path cwd
    (∀ entry ∈ summarizeFileChanges diff paths changes cwd, filePathKey paths entry.path cwd ≠ key) →
      KeepsExistence (changesAt paths cwd changes key) ∧
      ∀ patches content final, patchesOf diff (changesAt paths cwd changes key) = some patches →
        applyAll (patches.map patchOf) content = some final → (final = content ↔ Marked patches)

theorem summarized (documented : Documented diff) (paths : Paths) (changes : List HostFileChange) (cwd : Text) :
    Summarized diff paths changes cwd where
  distinct := (groupsOf paths changes cwd).keys_eq_nodup.sublist
    (summary_keys fun _ _ is _ member => (summarizeGroup_key is member).1)
  changed entry member := by
    obtain ⟨group, inGroups, member⟩ := mem_flatMap.mp member
    obtain ⟨⟨key, group⟩, is, rfl⟩ := mem_map.mp inGroups
    obtain ⟨keyed, isGroup⟩ := summarizeGroup_key is member
    obtain ⟨change, inGroup, path⟩ := summarizeGroup_path member
    rw [isGroup] at inGroup
    exact ⟨change, mem_of_mem_filter inGroup, by rw [path]⟩
  dropped change member := by
    intro key none
    have full : changesAt paths cwd changes key ≠ [] :=
      ne_nil_of_mem (mem_filter.mpr ⟨member, decide_eq_true rfl⟩)
    have has : (groupsOf paths changes cwd).get? key = some (changesAt paths cwd changes key) := by
      rw [get?_groupsOf, if_neg full]
    have is := (mem_entries_iff _ _ _).mpr has
    have empty : summarizeGroup diff (changesAt paths cwd changes key) = [] := by
      refine eq_nil_iff_forall_not_mem.mpr fun entry made => ?_
      exact none entry (mem_flatMap.mpr ⟨_, mem_map_of_mem is, made⟩) (summarizeGroup_key is made).1
    obtain ⟨existence, composed⟩ := summarizeGroup_nil empty full
    refine ⟨existence, fun patches content final parsed applied => ?_⟩
    rw [← composePatches_spec documented composed parsed applied, eq_comm]
    exact (some.injEq _ _).to_iff.symm

theorem files_summarized (documented : Documented diff) :
    (∀ changes patches hunks content final, composePatches diff changes = some hunks →
      patchesOf diff changes = some patches → applyAll (patches.map patchOf) content = some final →
      (applyBlocks 1 (patchOf hunks) content = some final ↔ Marked patches)) ∧
    ∀ paths changes cwd, Summarized diff paths changes cwd :=
  ⟨fun _ _ _ _ _ => composePatches_spec documented, summarized documented⟩

end Summaries

/-- How many lines in front are the same. -/
def commonFront (same : Nat → Nat → Bool) : List Nat → List Nat → Nat
  | a :: before, b :: after => if same a b then commonFront same before after + 1 else 0
  | _, _ => 0

/-- Compares as the library does where the lines behind the first difference have nothing in common. -/
def sampleParts (same : Nat → Nat → Bool) (before after : List Nat) : List (DiffPart Nat) :=
  let count := commonFront same before after
  (if count = 0 then [] else [.common count]) ++
    (if before.drop count = [] then [] else [.removed (before.drop count)]) ++
    (if after.drop count = [] then [] else [.added (after.drop count)])

section
variable (same : Nat → Nat → Bool)
include same

theorem commonFront_le (before after : List Nat) :
    commonFront same before after ≤ before.length := by
  induction before generalizing after with
  | nil =>
    cases after <;> exact le_rfl
  | cons a before ih =>
    cases after with
    | nil => exact zero_le _
    | cons b after =>
      rw [commonFront]
      split
      · exact succ_le_succ (ih after)
      · exact zero_le _

theorem commonFront_pairs (before after : List Nat) :
    List.Forall₂ (fun a b => same a b = true) (before.take (commonFront same before after))
      (after.take (commonFront same before after)) := by
  induction before generalizing after with
  | nil =>
    cases after <;> exact List.Forall₂.nil
  | cons a before ih =>
    cases after with
    | nil => exact List.Forall₂.nil
    | cons b after =>
      rw [commonFront]
      split
      · rename_i pair
        exact List.Forall₂.cons pair (ih after)
      · exact List.Forall₂.nil

theorem sampleParts_script (before after : List Nat) :
    DiffScript (fun a b => same a b = true) (sampleParts same before after) before after := by
  have added : ∀ lines : List Nat, DiffScript (fun a b => same a b = true)
      (if lines = [] then [] else [.added lines]) [] lines := by
    intro lines
    split
    · rename_i none
      rw [none]
      exact .nil
    · simpa using DiffScript.added lines .nil
  have removed : ∀ lines lines' : List Nat, DiffScript (fun a b => same a b = true)
      ((if lines = [] then [] else [.removed lines]) ++ if lines' = [] then [] else [.added lines']) lines lines' := by
    intro lines lines'
    by_cases none : lines = []
    · rw [if_pos none, none]
      exact added lines'
    · rw [if_neg none]
      simpa using DiffScript.removed lines (added lines')
  have pairs := commonFront_pairs same before after
  have rest := removed (before.drop (commonFront same before after)) (after.drop (commonFront same before after))
  have within := commonFront_le same before after
  rw [sampleParts, append_assoc]
  generalize commonFront same before after = count at pairs rest within
  by_cases none : count = 0
  · subst none
    exact rest
  · have length : (before.take count).length = count := length_take_of_le within
    have whole := DiffScript.common pairs rest
    rw [length, take_append_drop, take_append_drop] at whole
    rw [if_neg none]
    exact whole

end

/-- The headers of the file in front of the hunks. -/
def samplePatch (hunks : String) : Text := ("--- a/f\n+++ b/f\n" ++ hunks).toList

def sampleHunks : List (String × List Hunk) :=
  [("@@ -1 +1 @@\n-a\n+b\n", [⟨1, 1, 1, 1, ["-a".toList, "+b".toList]⟩]),
    ("@@ -1 +1 @@\n-b\n+c\n", [⟨1, 1, 1, 1, ["-b".toList, "+c".toList]⟩]),
    ("@@ -1,3 +1,3 @@\n a\n\n-c\n+d\n", [⟨1, 3, 1, 3, [" a".toList, [], "-c".toList, "+d".toList]⟩])]

def sampleDiff : DiffLibrary where
  parsePatch text := (sampleHunks.find? fun entry => samplePatch entry.1 = text).map fun entry => [entry.2]
  diffArrays := sampleParts
  formatPatch patch :=
    let number := fun (n : Nat) => (toString n).toList
    let lines := patch.hunks.flatMap fun hunk =>
      ("@@ -".toList ++ number (if hunk.oldLines = 0 then hunk.oldStart - 1 else hunk.oldStart) ++ [','] ++
        number hunk.oldLines ++ " +".toList ++ number (if hunk.newLines = 0 then hunk.newStart - 1 else hunk.newStart) ++
        [','] ++ number hunk.newLines ++ " @@".toList) :: hunk.lines
    ['\n'].intercalate (List.replicate 67 '=' :: ("--- ".toList ++ patch.oldFileName ++ ['\t']) ::
      ("+++ ".toList ++ patch.newFileName ++ ['\t']) :: lines) ++ ['\n']

theorem sampleDiff_documented : Documented sampleDiff where
  counts text patches parsed patch inPatches hunk inPatch := by
    obtain ⟨entry, found, rfl⟩ := map_eq_some_iff.mp parsed
    rw [mem_singleton.mp inPatches] at inPatch
    have member := mem_of_find?_eq_some found
    simp only [sampleHunks, mem_cons, not_mem_nil, or_false] at member
    rcases member with rfl | rfl | rfl <;> cases mem_singleton.mp inPatch <;> decide
  script := sampleParts_script

def sampleChange (hunks : String) : HostFileChange := ⟨"f".toList, .update, samplePatch hunks, false⟩

theorem files_summarized_sample :
    let changes := [sampleChange "@@ -1 +1 @@\n-a\n+b\n", sampleChange "@@ -1 +1 @@\n-b\n+c\n"]
    composePatches sampleDiff changes = some [⟨1, 1, 1, 1, ["-a".toList, "+c".toList]⟩] ∧
      applyBlocks 1 (patchOf [⟨1, 1, 1, 1, ["-a".toList, "+c".toList]⟩]) ["a\n".toList] = some ["c\n".toList] := by
  intro changes
  have composed : composePatches sampleDiff changes = some [⟨1, 1, 1, 1, ["-a".toList, "+c".toList]⟩] := by decide
  have parsed : patchesOf sampleDiff changes = some [[⟨1, 1, 1, 1, ["-a".toList, "+b".toList]⟩],
      [⟨1, 1, 1, 1, ["-b".toList, "+c".toList]⟩]] := by decide
  have same := (files_summarized sampleDiff_documented).1 changes _ _ ["a\n".toList] ["c\n".toList] composed parsed
    (by decide)
  exact ⟨composed, same.mpr (by unfold Marked; decide)⟩

/-- The first patch has a blank line that lost its space. The second one makes the code compose: the blank
line is gone. -/
theorem blank_line_lost :
    let changes := [sampleChange "@@ -1,3 +1,3 @@\n a\n\n-c\n+d\n", sampleChange "@@ -1 +1 @@\n-a\n+b\n"]
    ∃ patches hunks, Documented sampleDiff ∧ composePatches sampleDiff changes = some hunks ∧
      patchesOf sampleDiff changes = some patches ∧
      applyAll (patches.map patchOf) ["a\n".toList, "\n".toList, "c\n".toList] =
        some ["b\n".toList, "\n".toList, "d\n".toList] ∧
      applyBlocks 1 (patchOf hunks) ["a\n".toList, "\n".toList, "c\n".toList] = some ["b\n".toList, "d\n".toList] :=
  ⟨[[⟨1, 3, 1, 3, [" a".toList, [], "-c".toList, "+d".toList]⟩], [⟨1, 1, 1, 1, ["-a".toList, "+b".toList]⟩]],
    [⟨1, 3, 1, 2, ["-a".toList, "-".toList, "-c".toList, "+b".toList, "+d".toList]⟩], sampleDiff_documented,
    by decide, by decide, by decide, by decide⟩

end CodexHost.Guarantees.PatchComposition
