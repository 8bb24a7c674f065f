import CodexHost.Source.HostRuntime.ModelPrices

/-!
# Prices do not depend on the order of a table

Two tables with the same listings in another order. The loops that ask whether candidates agree, and the
listings a provider has of a model, do not see the order; the official listing that several canonical IDs
lead to is the last one on whose way it was found.
-/
namespace CodexHost.Guarantees.ModelPriceOrder
open Foundation Source.HostRuntime.ModelPrices OrderedMap List Option
open ModelPriceLookup

variable {ν : Type}

/-- The same listings and user prices, inserted in another order. -/
structure Reordered (lookup lookup' : ModelPriceLookup ν) : Prop where
  rows : lookup.rows.Perm lookup'.rows
  overrides : lookup.overrides = lookup'.overrides

section Rows
variable {lookup lookup' : ModelPriceLookup ν}

theorem mem_rows {row : Listing ν} :
    row ∈ lookup.rows ↔ lookup.listed row.provider row.model = some row.entry := by
  obtain ⟨provider, model, entry⟩ := row
  simp only [rows, mem_flatMap, List.mem_map, listed, bind_eq_some_iff]
  constructor
  · rintro ⟨⟨provider', models⟩, inProviders, ⟨⟨model', entry'⟩, inModels, is⟩⟩
    cases is
    exact ⟨models, (mem_entries_iff _ _ _).mp inProviders, (mem_entries_iff _ _ _).mp inModels⟩
  · rintro ⟨models, isProvider, isModel⟩
    exact ⟨(provider, models), (mem_entries_iff _ _ _).mpr isProvider,
      ⟨(model, entry), (mem_entries_iff _ _ _).mpr isModel, rfl⟩⟩

/-- The listings of a model are by different providers. -/
theorem listedBy_listings (model provider : Name) :
    listedBy (lookup.listings model) provider = lookup.listed provider model := by
  rw [listedBy]
  cases found : (lookup.listings model).find? (·.provider = provider) with
  | some row =>
    obtain ⟨inRows, isModel⟩ := mem_filter.mp (mem_of_find?_eq_some found)
    have isProvider : row.provider = provider := by simpa using find?_some found
    have isModel : row.model = model := by simpa using isModel
    rw [← isProvider, ← isModel, mem_rows.mp inRows]
    rfl
  | none =>
    cases is : lookup.listed provider model with
    | none => rfl
    | some entry =>
      have inRows : (⟨provider, model, entry⟩ : Listing ν) ∈ lookup.rows := mem_rows.mpr is
      have absent := find?_eq_none.mp found _ (mem_filter.mpr ⟨inRows, by simp⟩)
      simp at absent

theorem mem_models {provider : Name} {model : Name × ModelPriceEntry ν} :
    model ∈ (lookup.providers.get? provider).elim [] (·.entries) ↔
      lookup.listed provider model.1 = some model.2 := by
  rw [listed]
  cases lookup.providers.get? provider with
  | none => simp
  | some models => exact mem_entries_iff _ _ _

namespace Reordered
section
variable (same : Reordered lookup lookup')
include same

theorem listed_eq (provider model : Name) :
    lookup.listed provider model = lookup'.listed provider model := by
  have mem : ∀ (lookup : ModelPriceLookup ν) (entry : ModelPriceEntry ν),
      lookup.listed provider model = some entry ↔ (⟨provider, model, entry⟩ : Listing ν) ∈ lookup.rows := by
    intro lookup entry
    rw [mem_rows]
  refine Option.ext fun entry => ?_
  rw [mem, mem, same.rows.mem_iff]

theorem listings_perm (model : Name) : (lookup.listings model).Perm (lookup'.listings model) :=
  same.rows.filter _

theorem isVendor_eq : lookup.isVendor = lookup'.isVendor := by
  funext provider
  exact same.rows.any_eq

theorem resolveCanonical_eq :
    lookup.resolveCanonical = lookup'.resolveCanonical := by
  have resolve_eq : ∀ steps seen id entry,
      lookup.resolve steps seen id entry = lookup'.resolve steps seen id entry := by
    intro steps
    induction steps with
    | zero => exact fun _ _ _ => rfl
    | succ steps ih =>
      intro seen id entry
      simp only [resolve, same.listed_eq, ih]
  funext start
  rw [resolveCanonical, resolveCanonical, same.rows.length_eq, resolve_eq]

theorem brought_perm (model : Name) :
    (lookup.brought (lookup.listings model)).Perm (lookup'.brought (lookup'.listings model)) := by
  rw [brought, brought, same.resolveCanonical_eq]
  exact (same.listings_perm model).filterMap _

theorem mem_vendorAliases (official : Name) (entry : ModelPriceEntry ν) :
    entry ∈ lookup.vendorAliases official ↔ entry ∈ lookup'.vendorAliases official := by
  simp only [vendorAliases, mem_filterMap, mem_models, same.resolveCanonical_eq, same.listed_eq]

end

end Reordered

section Steps
variable {start : Name}

end Steps

end Rows

section Agreement
variable [DecidableEq ν]

theorem samePrice_iff {left right : ModelPrice ν} : samePrice left right = true ↔ left = right := by
  cases left
  cases right
  simp [samePrice, and_assoc]

theorem agreed_some {found price : ModelPrice ν} {prices : List (ModelPrice ν)} :
    agreed (some found) prices = some price ↔ price = found ∧ ∀ other ∈ prices, other = found := by
  induction prices generalizing found with
  | nil => simp [agreed, eq_comm]
  | cons first rest ih =>
    rw [agreed, any_some]
    by_cases here : samePrice found first = true
    · have is := samePrice_iff.mp here
      subst is
      simp [here, ih]
    · rw [Bool.not_eq_true] at here
      have other : first ≠ found := by
        intro is
        rw [is, samePrice_iff.mpr rfl] at here
        cases here
      simp [here, other]

theorem agreed_iff {price : ModelPrice ν} {prices : List (ModelPrice ν)} :
    agreed none prices = some price ↔ price ∈ prices ∧ ∀ other ∈ prices, other = price := by
  cases prices with
  | nil => simp [agreed]
  | cons first rest =>
    rw [agreed, any_none, if_neg Bool.false_ne_true, agreed_some]
    constructor
    · rintro ⟨rfl, all⟩
      simpa using all
    · rintro ⟨member, all⟩
      have is := all first mem_cons_self
      exact ⟨is.symm, fun other within => (all other (mem_cons_of_mem _ within)).trans is.symm⟩

theorem agreed_congr {prices prices' : List (ModelPrice ν)} (same : ∀ price, price ∈ prices ↔ price ∈ prices') :
    agreed none prices = agreed none prices' := by
  refine Option.ext fun price => ?_
  simp only [agreed_iff, same]

end Agreement

section Officials
variable {K V : Type}

/-- What is stored under one key, or under no key. -/
theorem entries_single {m : OrderedMap K V} {key : K} (only : ∀ other ∈ m.keys, other = key) :
    m.entries = [] ∨ ∃ value, m.entries = [(key, value)] := by
  have nodup := m.keys_nodup
  rw [OrderedMap.keys] at only
  cases is : m.entries with
  | nil => exact .inl rfl
  | cons first rest =>
    rw [is] at nodup only
    rw [map_cons, nodup_cons] at nodup
    have here : first.1 = key := only _ mem_cons_self
    cases rest with
    | nil => exact .inr ⟨first.2, by rw [← here]⟩
    | cons second rest =>
      have again : second.1 = key := only _ (by simp)
      exact absurd (by simp [here, again]) nodup.1

theorem eraseDups_eq_nil [BEq K] [LawfulBEq K] {values : List K} : values.eraseDups = [] ↔ values = [] := by
  cases values <;> simp [eraseDups_cons]

theorem eraseDups_single [BEq K] [LawfulBEq K] {values : List K} {value : K} :
    values.eraseDups = [value] ↔ values ≠ [] ∧ ∀ other ∈ values, other = value := by
  cases values with
  | nil => simp
  | cons first rest =>
    rw [eraseDups_cons, List.cons.injEq, eraseDups_eq_nil, filter_eq_nil_iff, forall_mem_cons]
    constructor
    · rintro ⟨rfl, all⟩
      exact ⟨by simp, rfl, fun other member => by simpa using all other member⟩
    · rintro ⟨-, rfl, all⟩
      exact ⟨rfl, fun other member => by simpa using all other member⟩

variable [DecidableEq K]

theorem keys_setAll_empty {pairs : List (K × V)} {key : K} :
    key ∈ ((OrderedMap.empty : OrderedMap K V).setAll pairs).keys ↔ key ∈ pairs.map Prod.fst := by
  rw [mem_keys_iff, ← has_iff, has_setAll]
  simp [OrderedMap.has]

/-- A key that all pairs have is stored with the last value. -/
theorem setAll_single {pairs : List (K × V)} {key : K} {value : V} (only : ∀ pair ∈ pairs, pair.1 = key) :
    ((OrderedMap.empty : OrderedMap K V).setAll (pairs ++ [(key, value)])).entries = [(key, value)] := by
  have keys : ∀ other ∈ (OrderedMap.empty.setAll pairs).keys, other = key := by
    intro other member
    obtain ⟨pair, within, rfl⟩ := mem_map.mp (keys_setAll_empty.mp member)
    exact only pair within
  have last : OrderedMap.empty.setAll (pairs ++ [(key, value)]) =
      (OrderedMap.empty.setAll pairs).set key value := by
    rw [OrderedMap.setAll, foldl_append]
    rfl
  rw [last]
  rcases entries_single keys with none | ⟨old, one⟩
  · rw [OrderedMap.set, dif_neg (by simp [none])]
    simp [none]
  · rw [OrderedMap.set, dif_pos (by simp [one])]
    simp [OrderedMap.replaceEntry, one]

/-- No pairs, one key, or several. -/
theorem setAll_cases (pairs : List (K × V)) :
    let stored := ((OrderedMap.empty : OrderedMap K V).setAll pairs).entries
    (pairs = [] ∧ stored = []) ∨
      (∃ last, pairs.getLast? = some last ∧ (∀ pair ∈ pairs, pair.1 = last.1) ∧ stored = [last]) ∨
      (∃ pair ∈ pairs, ∃ other ∈ pairs, pair.1 ≠ other.1) ∧ ∃ first second rest, stored = first :: second :: rest := by
  by_cases several : ∃ pair ∈ pairs, ∃ other ∈ pairs, pair.1 ≠ other.1
  · refine .inr (.inr ⟨several, ?_⟩)
    obtain ⟨pair, member, other, member', apart⟩ := several
    have keys : ∀ {pair : K × V}, pair ∈ pairs →
        pair.1 ∈ ((OrderedMap.empty : OrderedMap K V).setAll pairs).entries.map Prod.fst :=
      fun member => keys_setAll_empty.mpr (mem_map_of_mem member)
    have first := keys member
    have second := keys member'
    match ((OrderedMap.empty : OrderedMap K V).setAll pairs).entries, first, second with
    | [one], first, second =>
      simp only [map_cons, map_nil, mem_singleton] at first second
      exact absurd (first.trans second.symm) apart
    | first :: second :: rest, _, _ => exact ⟨first, second, rest, rfl⟩
  · push Not at several
    rcases eq_nil_or_concat pairs with none | ⟨front, last, is⟩
    · exact .inl ⟨none, by rw [none]; rfl⟩
    · have member : last ∈ pairs := by simp [is]
      rw [concat_eq_append] at is
      refine .inr (.inl ⟨last, by simp [is], fun pair within => several pair within last member, ?_⟩)
      rw [is]
      exact setAll_single fun pair within => several pair (by simp [is, within]) last member

end Officials

section Decisions
variable {lookup : ModelPriceLookup ν}

/-- The listings of a model lead to one official ID, and its vendor does not list the model. -/
def LeadsTo (lookup : ModelPriceLookup ν) (model official : Name) : Prop :=
  (∀ other ∈ lookup.brought (lookup.listings model), other.1 = official) ∧
    lookup.listed (vendorOf official) model = none

theorem vendors_iff {model vendor : Name} :
    ((lookup.officials (lookup.listings model)).keys.map vendorOf).eraseDups = [vendor] ↔
      lookup.brought (lookup.listings model) ≠ [] ∧
        ∀ other ∈ lookup.brought (lookup.listings model), vendorOf other.1 = vendor := by
  have keys : ∀ key, key ∈ (lookup.officials (lookup.listings model)).keys ↔
      key ∈ (lookup.brought (lookup.listings model)).map Prod.fst := fun _ => keys_setAll_empty
  rw [eraseDups_single]
  refine and_congr ?_ ?_
  · rw [ne_eq, ne_eq, map_eq_nil_iff, eq_nil_iff_forall_not_mem, not_iff_not]
    simp only [keys, ← eq_nil_iff_forall_not_mem, map_eq_nil_iff]
  · rw [List.forall_mem_map]
    simp only [keys]
    rw [List.forall_mem_map]

variable {model : Name}

theorem vendorListing_iff {own : ModelPriceEntry ν} :
    lookup.vendorListing (lookup.listings model) = some own ↔
      ∃ vendor, (lookup.brought (lookup.listings model) ≠ [] ∧
        ∀ other ∈ lookup.brought (lookup.listings model), vendorOf other.1 = vendor) ∧
        lookup.listed vendor model = some own := by
  simp only [← vendors_iff, ← listedBy_listings]
  rw [vendorListing]
  split
  · rename_i vendor is
    simp [is]
  · rename_i several
    simp only [reduceCtorEq, false_iff, not_exists, not_and]
    exact fun vendor is => absurd is (several vendor)

variable [DecidableEq ν]

/-- What the lookup makes of an official ID whose vendor does not list the model itself. -/
def officialPrice (lookup : ModelPriceLookup ν) (official : Name × Option (ModelPriceEntry ν)) :
    Option (ModelPrice ν) :=
  match official.2 with
  | some entry => some (entryPrice entry)
  | none => lookup.vendorAliasPrice official.1

/-- What `#find` makes of the listings of a model. -/
def catalogPrice (lookup : ModelPriceLookup ν) (model : Name) : Option (ModelPrice ν) :=
  match soleListing (lookup.listings model) with
  | some only => some (entryPrice only)
  | none =>
    match lookup.vendorListing (lookup.listings model) with
    | some own => some (entryPrice own)
    | none =>
      match (lookup.officials (lookup.listings model)).entries with
      | [] => lookup.vendorPrice (lookup.listings model)
      | [(official, officialEntry)] =>
        match officialEntry <|> listedBy (lookup.listings model) (vendorOf official) with
        | some entry => some (entryPrice entry)
        | none => lookup.vendorAliasPrice official
      | _ => none

/-- A provider's own listing of an ID, when the caller names the provider. -/
def exactListing (lookup : ModelPriceLookup ν) (model : Name) (provider : Option Name) :
    Option (ModelPriceEntry ν) :=
  (provider.filter (· ≠ [])).bind (lookup.listed · model)

theorem findListed_eq (model : Name) (provider : Option Name) : lookup.findListed model provider =
      match lookup.userPrice model provider with
      | some override => some override
      | none =>
        match exactListing lookup model provider with
        | some exact => some (entryPrice exact)
        | none => catalogPrice lookup model := rfl

theorem catalogPrice_sole {only : ModelPriceEntry ν}
    (is : soleListing (lookup.listings model) = some only) : catalogPrice lookup model = some (entryPrice only) := by
  rw [catalogPrice, is]

theorem catalogPrice_own {own : ModelPriceEntry ν} (several : soleListing (lookup.listings model) = none)
    (is : lookup.vendorListing (lookup.listings model) = some own) :
    catalogPrice lookup model = some (entryPrice own) := by
  rw [catalogPrice, several, is]

/-- Without a sole listing and a vendor's own one, the official IDs settle the price. -/
theorem catalogPrice_open (several : soleListing (lookup.listings model) = none)
    (noOwn : lookup.vendorListing (lookup.listings model) = none) :
    lookup.brought (lookup.listings model) = [] ∧
        catalogPrice lookup model = lookup.vendorPrice (lookup.listings model) ∨
      (∃ last, (lookup.brought (lookup.listings model)).getLast? = some last ∧ LeadsTo lookup model last.1 ∧
        catalogPrice lookup model = officialPrice lookup last) ∨
      (∃ one ∈ lookup.brought (lookup.listings model), ∃ other ∈ lookup.brought (lookup.listings model),
        one.1 ≠ other.1) ∧ catalogPrice lookup model = none := by
  rw [catalogPrice, several, noOwn]
  rw [officials]
  rcases setAll_cases (lookup.brought (lookup.listings model)) with
    ⟨nothing, is⟩ | ⟨last, ends, only, is⟩ | ⟨different, first, second, rest, is⟩
  · exact .inl ⟨nothing, by rw [is]⟩
  · have member := mem_of_getLast? ends
    have unlisted : lookup.listed (vendorOf last.1) model = none := by
      refine eq_none_iff_forall_ne_some.mpr fun own listed => ?_
      have found := vendorListing_iff.mpr ⟨vendorOf last.1,
        ⟨ne_nil_of_mem member, fun other within => by rw [only other within]⟩, listed⟩
      rw [noOwn] at found
      cases found
    refine .inr (.inl ⟨last, ends, ⟨only, unlisted⟩, ?_⟩)
    obtain ⟨official, entry⟩ := last
    rw [is]
    dsimp only
    rw [listedBy_listings, unlisted, officialPrice]
    cases entry <;> rfl
  · exact .inr (.inr ⟨different, by rw [is]⟩)

end Decisions

end CodexHost.Guarantees.ModelPriceOrder
