import Mathlib

/-!
# Patches of lists of lines

A block reads some lines at a position and writes others in their place. A patch is a list of blocks that
stand in the order of their positions, counted from one in the lines before the patch.
-/
namespace CodexHost.Foundation
open List

inductive Edit (α : Type) where
  | insert (line : α) | delete (line : α) | keep (line : α)
  deriving DecidableEq, Repr

namespace Edit
variable {α : Type}

/-- The lines that are read. -/
def old : List (Edit α) → List α
  | [] => []
  | .insert _ :: rest => old rest
  | .delete line :: rest | .keep line :: rest => line :: old rest

/-- The lines that are written. -/
def new : List (Edit α) → List α
  | [] => []
  | .delete _ :: rest => new rest
  | .insert line :: rest | .keep line :: rest => line :: new rest

theorem old_append (front back : List (Edit α)) : old (front ++ back) = old front ++ old back := by
  induction front with
  | nil => rfl
  | cons edit rest ih => cases edit <;> simp [old, ih]

theorem new_append (front back : List (Edit α)) : new (front ++ back) = new front ++ new back := by
  induction front with
  | nil => rfl
  | cons edit rest ih => cases edit <;> simp [new, ih]

end Edit

structure Block (α : Type) where
  start : Nat
  edits : List (Edit α)
  deriving DecidableEq, Repr

variable {α : Type} [DecidableEq α]

/-- Applies blocks to the lines from a position on. -/
def applyBlocks : Nat → List (Block α) → List α → Option (List α)
  | _, [], content => some content
  | line, block :: blocks, content =>
    let gap := block.start - line
    let old := Edit.old block.edits
    if line ≤ block.start ∧ gap ≤ content.length ∧ (content.drop gap).take old.length = old then
      (applyBlocks (block.start + old.length) blocks (content.drop (gap + old.length))).map fun rest =>
        content.take gap ++ Edit.new block.edits ++ rest
    else none

/-- The first block and the lines around it. -/
theorem applyBlocks_cons {line : Nat} {block : Block α} {blocks : List (Block α)} {content out : List α} :
    applyBlocks line (block :: blocks) content = some out ↔
      ∃ gap rest rest', content = gap ++ Edit.old block.edits ++ rest ∧ block.start = line + gap.length ∧
        applyBlocks (block.start + (Edit.old block.edits).length) blocks rest = some rest' ∧
        out = gap ++ Edit.new block.edits ++ rest' := by
  rw [applyBlocks]
  constructor
  · intro applied
    split at applied
    · rename_i fits
      obtain ⟨order, within, reads⟩ := fits
      obtain ⟨rest', after, rfl⟩ := Option.map_eq_some_iff.mp applied
      refine ⟨content.take (block.start - line), _, rest', ?_, ?_, after, rfl⟩
      · have parts := take_append_drop (block.start - line) content
        have inner := take_append_drop (Edit.old block.edits).length (content.drop (block.start - line))
        rw [reads, drop_drop] at inner
        rw [append_assoc, inner, parts]
      · rw [length_take, Nat.min_eq_left within]
        omega
    · cases applied
  · rintro ⟨gap, rest, rest', rfl, start, after, rfl⟩
    have length : block.start - line = gap.length := by omega
    have dropped : (gap ++ Edit.old block.edits ++ rest).drop gap.length = Edit.old block.edits ++ rest := by
      rw [append_assoc, drop_left]
    have taken : (gap ++ Edit.old block.edits ++ rest).take gap.length = gap := by
      rw [append_assoc, take_left]
    rw [length, if_pos ⟨by omega, by simp, by rw [dropped, take_left]⟩, ← drop_drop, dropped,
      drop_left, after, taken]
    rfl

/-- Blocks that apply behind some lines apply with these lines in front. -/
theorem applyBlocks_gap {line : Nat} {blocks : List (Block α)} {content out front : List α}
    (applied : applyBlocks (line + front.length) blocks content = some out) :
    applyBlocks line blocks (front ++ content) = some (front ++ out) := by
  cases blocks with
  | nil =>
    cases applied
    rfl
  | cons block blocks =>
    obtain ⟨gap, rest, rest', rfl, start, after, rfl⟩ := applyBlocks_cons.mp applied
    refine applyBlocks_cons.mpr ⟨front ++ gap, rest, rest', by simp, ?_, after, by simp⟩
    rw [length_append]
    omega

/-- The number of lines that a patch adds. -/
def gain (blocks : List (Block α)) : Int :=
  (blocks.map fun block => ((Edit.new block.edits).length : Int) - (Edit.old block.edits).length).sum

theorem applyBlocks_length {line : Nat} {blocks : List (Block α)} {content out : List α}
    (applied : applyBlocks line blocks content = some out) : (out.length : Int) = content.length + gain blocks := by
  induction blocks generalizing line content out with
  | nil =>
    cases applied
    simp [gain]
  | cons block blocks ih =>
    obtain ⟨gap, rest, rest', rfl, start, after, rfl⟩ := applyBlocks_cons.mp applied
    have others := ih after
    simp only [gain, map_cons, sum_cons, length_append, Int.natCast_add] at others ⊢
    omega

/-- Applies patches one after the other. -/
def applyAll : List (List (Block α)) → List α → Option (List α)
  | [], content => some content
  | patch :: patches, content => (applyBlocks 1 patch content).bind (applyAll patches)

/-- The parts of a list comparison: lines that both lists have, lines of the first, lines of the second. -/
inductive DiffPart (β : Type) where
  | common (count : Nat) | removed (lines : List β) | added (lines : List β)

/-- The parts lead from the first list to the second. -/
inductive DiffScript {β : Type} (same : β → β → Prop) : List (DiffPart β) → List β → List β → Prop where
  | nil : DiffScript same [] [] []
  | common {parts : List (DiffPart β)} {before after : List β} {front front' : List β}
      (pairs : List.Forall₂ same front front') (rest : DiffScript same parts before after) :
      DiffScript same (.common front.length :: parts) (front ++ before) (front' ++ after)
  | removed {parts : List (DiffPart β)} {before after : List β} (lines : List β)
      (rest : DiffScript same parts before after) :
      DiffScript same (.removed lines :: parts) (lines ++ before) after
  | added {parts : List (DiffPart β)} {before after : List β} (lines : List β)
      (rest : DiffScript same parts before after) :
      DiffScript same (.added lines :: parts) before (lines ++ after)

end CodexHost.Foundation
