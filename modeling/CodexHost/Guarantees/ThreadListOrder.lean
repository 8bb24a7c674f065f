import CodexHost.Foundation.SortedMerge
import CodexHost.Source.HostRuntime.ThreadListAggregator

/-!
# The order of Thread list entries

`compareThreadListEntries` is a total preorder in which only official rows of one timestamp
are alike; the External rows after an anchor are what follows its row in the sorted list.
-/
namespace CodexHost.Guarantees.ThreadList
open Foundation Source.MappingStore Source.ProtocolCore EcmaString
open Source.HostRuntime

/-- Strictly before in the direction. -/
def Earlier : ThreadListSortDirection → Int → Int → Prop
  | .asc, left, right => left < right
  | .desc, left, right => right < left

theorem compareTimestamp_neg_iff (left right : Int) (direction : ThreadListSortDirection) :
    compareTimestamp left right direction < 0 ↔ Earlier direction left right := by
  unfold compareTimestamp
  cases direction <;> simp only [Earlier] <;> split <;> omega

theorem compareTimestamp_eq_zero_iff (left right : Int) (direction : ThreadListSortDirection) :
    compareTimestamp left right direction = 0 ↔ left = right := by
  unfold compareTimestamp
  split
  · simp [*]
  · cases direction <;> simp only <;> omega

theorem compareText_neg_iff (left right : String) :
    compareText left right < 0 ↔ EcmaString.lessThan left right := by
  unfold compareText
  split
  · next same =>
    subst same
    simp [lessThan_irrefl]
  · split <;> simp [*]

theorem compareText_eq_zero_iff (left right : String) : compareText left right = 0 ↔ left = right := by
  unfold compareText
  split
  · simp [*]
  · split <;> simp [*]

/-- The order of entries with one timestamp. -/
def TieOrder (left right : ThreadListEntry) : Prop :=
  match left.source, right.source with
  | .external, .official => True
  | .official, .external => False
  | .official, .official => True
  | .external, .external =>
    left.thread.id = right.thread.id ∨ EcmaString.lessThan left.thread.id right.thread.id

theorem compare_le_iff (left right : ThreadListEntry) (direction : ThreadListSortDirection) :
    compareThreadListEntries left right direction ≤ 0 ↔ Earlier direction left.timestamp right.timestamp ∨
        (left.timestamp = right.timestamp ∧ TieOrder left right) := by
  have neg := compareTimestamp_neg_iff left.timestamp right.timestamp direction
  have zero := compareTimestamp_eq_zero_iff left.timestamp right.timestamp direction
  unfold compareThreadListEntries TieOrder
  by_cases tie : compareTimestamp left.timestamp right.timestamp direction = 0
  · have same := zero.mp tie
    have never : ¬ Earlier direction left.timestamp right.timestamp := by
      rw [← neg]
      omega
    simp only [tie, ne_eq, not_true_eq_false, if_false, never, false_or]
    simp only [same, true_and]
    cases hl : left.source <;> cases hr : right.source <;> simp
    have less := compareText_neg_iff left.thread.id right.thread.id
    have equal := compareText_eq_zero_iff left.thread.id right.thread.id
    rw [← less, ← equal]
    omega
  · have apart : left.timestamp ≠ right.timestamp := fun same => tie (zero.mpr same)
    simp only [ne_eq, tie, not_false_eq_true, if_true, apart, false_and, or_false, ← neg]
    omega

theorem Earlier.trans {direction : ThreadListSortDirection} {a b c : Int}
    (first : Earlier direction a b) (second : Earlier direction b c) : Earlier direction a c := by
  cases direction <;> simp only [Earlier] at * <;> omega

section
variable (direction : ThreadListSortDirection)
include direction

theorem Earlier.total (a b : Int) :
    Earlier direction a b ∨ a = b ∨ Earlier direction b a := by
  cases direction <;> simp only [Earlier] <;> omega

theorem Earlier.irrefl (a : Int) : ¬ Earlier direction a a := by
  cases direction <;> simp only [Earlier] <;> omega

theorem earlier_opposite (a b : Int) :
    Earlier (opposite direction) a b ↔ Earlier direction b a := by
  cases direction <;> rfl

end

theorem TieOrder.trans {a b c : ThreadListEntry} (first : TieOrder a b) (second : TieOrder b c) :
    TieOrder a c := by
  unfold TieOrder at *
  cases ha : a.source <;> cases hb : b.source <;> cases hc : c.source <;>
    simp only [ha, hb, hc] at first second ⊢
  rcases first with same | before
  · rw [same]
    exact second
  · rcases second with same' | before'
    · rw [← same']
      exact .inr before
    · exact .inr (lessThan_trans before before')

theorem TieOrder.total (a b : ThreadListEntry) : TieOrder a b ∨ TieOrder b a := by
  unfold TieOrder
  cases ha : a.source <;> cases hb : b.source <;> simp only [or_true, true_or, or_self]
  rcases lessThan_trichotomy a.thread.id b.thread.id with before | same | after
  · exact .inl (.inr before)
  · exact .inl (.inl same)
  · exact .inr (.inr after)

theorem compare_le_trans {direction : ThreadListSortDirection} {a b c : ThreadListEntry}
    (first : compareThreadListEntries a b direction ≤ 0)
    (second : compareThreadListEntries b c direction ≤ 0) :
    compareThreadListEntries a c direction ≤ 0 := by
  rw [compare_le_iff] at *
  rcases first with earlier | ⟨same, tie⟩
  · rcases second with earlier' | ⟨same', -⟩
    · exact .inl (earlier.trans earlier')
    · exact .inl (same' ▸ earlier)
  · rcases second with earlier' | ⟨same', tie'⟩
    · exact .inl (same ▸ earlier')
    · exact .inr ⟨same.trans same', tie.trans tie'⟩

theorem compare_le_total (direction : ThreadListSortDirection) (a b : ThreadListEntry) :
    compareThreadListEntries a b direction ≤ 0 ∨ compareThreadListEntries b a direction ≤ 0 := by
  rw [compare_le_iff, compare_le_iff]
  rcases Earlier.total direction a.timestamp b.timestamp with earlier | same | later
  · exact .inl (.inl earlier)
  · rcases TieOrder.total a b with tie | tie
    · exact .inl (.inr ⟨same, tie⟩)
    · exact .inr (.inr ⟨same.symm, tie⟩)
  · exact .inr (.inl later)

/-- The entry comes after the anchor. -/
def After (direction : ThreadListSortDirection) (anchor : ThreadListExternalAnchor)
    (entry : ThreadListEntry) : Prop :=
  Earlier direction anchor.timestamp entry.timestamp ∨
    (anchor.timestamp = entry.timestamp ∧ EcmaString.lessThan anchor.threadId entry.thread.id)

theorem compareExternalAnchor_pos_iff (entry : ThreadListEntry) (anchor : ThreadListExternalAnchor)
    (direction : ThreadListSortDirection) :
    0 < compareExternalAnchor entry anchor direction ↔ After direction anchor entry := by
  have neg := compareTimestamp_neg_iff entry.timestamp anchor.timestamp direction
  have zero := compareTimestamp_eq_zero_iff entry.timestamp anchor.timestamp direction
  have less := compareText_neg_iff entry.thread.id anchor.threadId
  have equal := compareText_eq_zero_iff entry.thread.id anchor.threadId
  unfold compareExternalAnchor After
  by_cases tie : compareTimestamp entry.timestamp anchor.timestamp direction = 0
  · have same := zero.mp tie
    have never : ¬ Earlier direction anchor.timestamp entry.timestamp := by
      rw [same]
      exact Earlier.irrefl direction _
    simp only [tie, ne_eq, not_true_eq_false, if_false, never, false_or]
    simp only [same, true_and]
    rcases lessThan_trichotomy anchor.threadId entry.thread.id with before | same | after
    · have notLess : ¬ lessThan entry.thread.id anchor.threadId := fun back =>
        lessThan_irrefl _ (lessThan_trans before back)
      have apart : entry.thread.id ≠ anchor.threadId := fun same =>
        lessThan_irrefl _ (same ▸ before)
      rw [← less] at notLess
      rw [ne_eq, ← equal] at apart
      simp only [before, iff_true]
      omega
    · have notAfter : ¬ lessThan anchor.threadId entry.thread.id := by
        rw [same]
        exact lessThan_irrefl _
      have text := equal.mpr same.symm
      simp only [notAfter, iff_false]
      omega
    · have notAfter : ¬ lessThan anchor.threadId entry.thread.id := fun back =>
        lessThan_irrefl _ (lessThan_trans after back)
      rw [← less] at after
      simp only [notAfter, iff_false]
      omega
  · have apart : anchor.timestamp ≠ entry.timestamp := fun same => tie (zero.mpr same.symm)
    simp only [ne_eq, tie, not_false_eq_true, if_true, apart, false_and, or_false]
    rcases Earlier.total direction entry.timestamp anchor.timestamp with earlier | same | later
    · have notLater : ¬ Earlier direction anchor.timestamp entry.timestamp := fun back =>
        Earlier.irrefl direction _ (earlier.trans back)
      rw [← neg] at earlier
      simp only [notLater, iff_false]
      omega
    · exact absurd same.symm apart
    · have notEarlier : ¬ Earlier direction entry.timestamp anchor.timestamp := fun back =>
        Earlier.irrefl direction _ (later.trans back)
      rw [← neg] at notEarlier
      simp only [later, iff_true]
      omega

theorem isAfterAnchor_iff (anchor : Option ThreadListExternalAnchor)
    (direction : ThreadListSortDirection) (entry : ThreadListEntry) :
    isAfterAnchor anchor direction entry = true ↔ ∀ a, anchor = some a → After direction a entry := by
  cases anchor with
  | none => simp [isAfterAnchor]
  | some a => simp [isAfterAnchor, compareExternalAnchor_pos_iff]

theorem After.trans {direction : ThreadListSortDirection} {anchor : ThreadListExternalAnchor}
    {a b : ThreadListEntry} (first : After direction anchor a)
    (second : After direction (externalAnchor a) b) : After direction anchor b := by
  rcases first with earlier | ⟨same, less⟩
  · rcases second with earlier' | ⟨same', -⟩
    · exact .inl (earlier.trans earlier')
    · exact .inl (same' ▸ earlier)
  · rcases second with earlier' | ⟨same', less'⟩
    · exact .inl (same ▸ earlier')
    · exact .inr ⟨same.trans same', lessThan_trans less less'⟩

theorem After.irrefl (direction : ThreadListSortDirection) (a : ThreadListEntry) :
    ¬ After direction (externalAnchor a) a := by
  rintro (earlier | ⟨-, less⟩)
  · exact Earlier.irrefl direction _ earlier
  · exact lessThan_irrefl _ less

/-- Two External entries with different IDs are in one strict order or the other. -/
theorem after_of_compare {direction : ThreadListSortDirection} {a b : ThreadListEntry}
    (external : a.source = .external) (external' : b.source = .external)
    (apart : a.thread.id ≠ b.thread.id) (order : compareThreadListEntries a b direction ≤ 0) :
    After direction (externalAnchor a) b := by
  rw [compare_le_iff] at order
  rcases order with earlier | ⟨same, tie⟩
  · exact .inl earlier
  · simp only [TieOrder, external, external'] at tie
    rcases tie with same' | less
    · exact absurd same' apart
    · exact .inr ⟨same, less⟩

end CodexHost.Guarantees.ThreadList
