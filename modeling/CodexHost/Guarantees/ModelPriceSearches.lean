import CodexHost.Guarantees.ModelPriceOrder

/-!
# Searches for a price

Where the listings of every model agree on its official price, a search gives the same price for every
order of the table, and the candidates it decides between have that price; a table in which they differ
is searched differently in another order.
-/
namespace CodexHost.Guarantees.ModelPriceOrder
open Foundation Source.HostRuntime.ModelPrices List Option
open ModelPriceLookup

variable {ν : Type}

section Orders
variable {lookup lookup' : ModelPriceLookup ν}

namespace Reordered

section
variable (same : Reordered lookup lookup')
include same

theorem vendorListing_eq (model : Name) :
    lookup.vendorListing (lookup.listings model) = lookup'.vendorListing (lookup'.listings model) := by
  have perm := same.brought_perm model
  refine Option.ext fun own => ?_
  rw [vendorListing_iff, vendorListing_iff]
  simp only [same.listed_eq, perm.mem_iff, ne_eq, ← length_eq_zero_iff, perm.length_eq]

theorem soleListing_eq (model : Name) :
    soleListing (lookup.listings model) = soleListing (lookup'.listings model) := by
  have perm := same.listings_perm model
  have length := perm.length_eq
  match is : lookup.listings model, is' : lookup'.listings model with
  | [], [] => rfl
  | [one], [other] =>
    rw [is, is', perm_singleton] at perm
    rw [perm]
  | [], _ :: _ | _ :: _, [] | [_], _ :: _ :: _ | _ :: _ :: _, [_] => simp [is, is'] at length
  | _ :: _ :: _, _ :: _ :: _ => rfl

theorem leadsTo_iff {model official : Name} :
    LeadsTo lookup model official ↔ LeadsTo lookup' model official := by
  simp only [LeadsTo, same.listed_eq, (same.brought_perm model).mem_iff]

end

end Reordered

theorem soleListing_single {listings : List (Listing ν)} {only : ModelPriceEntry ν}
    (is : soleListing listings = some only) : ∃ listing, listings = [listing] := by
  match listings, is with
  | [listing], _ => exact ⟨listing, rfl⟩

end Orders

variable {model : Name} {price : ModelPrice ν}

section Decisions
variable [DecidableEq ν] {lookup lookup' : ModelPriceLookup ν}

/-- Whenever the listings of a model lead to one official ID that its vendor does not list as this model,
they bring the same price for it. -/
def Consistent (lookup : ModelPriceLookup ν) : Prop :=
  ∀ model official, lookup.overrides.get? model = none → LeadsTo lookup model official →
    ∀ one ∈ lookup.brought (lookup.listings model), ∀ other ∈ lookup.brought (lookup.listings model),
      officialPrice lookup one = officialPrice lookup other

namespace Reordered

section
variable (same : Reordered lookup lookup')
include same

theorem vendorPrice_eq (model : Name) :
    lookup.vendorPrice (lookup.listings model) = lookup'.vendorPrice (lookup'.listings model) := by
  rw [vendorPrice, vendorPrice, same.isVendor_eq]
  exact agreed_congr fun price => (((same.listings_perm model).filter _).map _).mem_iff

theorem officialPrice_eq : officialPrice lookup = officialPrice lookup' := by
  have aliases : lookup.vendorAliasPrice = lookup'.vendorAliasPrice := by
    funext official
    refine agreed_congr fun price => ?_
    simp only [List.mem_map, same.mem_vendorAliases]
  funext official
  rw [officialPrice, officialPrice, aliases]

theorem catalogPrice_eq
    (consistent : ∀ official, LeadsTo lookup model official →
      ∀ one ∈ lookup.brought (lookup.listings model), ∀ other ∈ lookup.brought (lookup.listings model),
        officialPrice lookup one = officialPrice lookup other) :
    catalogPrice lookup model = catalogPrice lookup' model := by
  have brought := same.brought_perm model
  cases sole : soleListing (lookup.listings model) with
  | some only => rw [catalogPrice_sole sole, catalogPrice_sole (same.soleListing_eq model ▸ sole)]
  | none =>
    have sole' := same.soleListing_eq model ▸ sole
    cases own : lookup.vendorListing (lookup.listings model) with
    | some listing =>
      rw [catalogPrice_own sole own, catalogPrice_own sole' (same.vendorListing_eq model ▸ own)]
    | none =>
      have own' := same.vendorListing_eq model ▸ own
      have inBoth : ∀ {official}, official ∈ lookup'.brought (lookup'.listings model) →
          official ∈ lookup.brought (lookup.listings model) := brought.mem_iff.mpr
      rcases catalogPrice_open sole own with
        ⟨nothing, is⟩ | ⟨last, ends, leads, is⟩ | ⟨⟨one, within, other, within', apart⟩, is⟩
      · rcases catalogPrice_open sole' own' with
          ⟨-, is'⟩ | ⟨last', ends', -⟩ | ⟨⟨one', inside, -⟩, -⟩
        · rw [is, is', same.vendorPrice_eq]
        · exact absurd (inBoth (mem_of_getLast? ends')) (by simp [nothing])
        · exact absurd (inBoth inside) (by simp [nothing])
      · have member := mem_of_getLast? ends
        rcases catalogPrice_open sole' own' with
          ⟨nothing', -⟩ | ⟨last', ends', -, is'⟩ | ⟨⟨one', inside, other', inside', apart'⟩, -⟩
        · exact absurd (brought.mem_iff.mp member) (by simp [nothing'])
        · rw [is, is', ← same.officialPrice_eq]
          exact consistent last.1 leads last member last' (inBoth (mem_of_getLast? ends'))
        · exact absurd ((leads.1 one' (inBoth inside)).trans (leads.1 other' (inBoth inside')).symm) apart'
      · rcases catalogPrice_open sole' own' with ⟨nothing', -⟩ | ⟨last', -, leads', -⟩ | ⟨-, is'⟩
        · exact absurd (brought.mem_iff.mp within) (by simp [nothing'])
        · have leads' := same.leadsTo_iff.mpr leads'
          exact absurd ((leads'.1 one within).trans (leads'.1 other within').symm) apart
        · rw [is, is']

theorem findListed_eq (consistent : Consistent lookup) :
    lookup.findListed = lookup'.findListed := by
  funext model provider
  have user : lookup.userPrice = lookup'.userPrice := by
    funext model provider
    rw [userPrice, userPrice, same.overrides]
  have exact : exactListing lookup model provider = exactListing lookup' model provider := by
    simp only [exactListing, same.listed_eq]
  rw [ModelPriceOrder.findListed_eq, ModelPriceOrder.findListed_eq, user, exact]
  cases isUser : lookup'.userPrice model provider with
  | some override => rfl
  | none =>
    cases exactListing lookup' model provider with
    | some exact => rfl
    | none =>
      refine same.catalogPrice_eq fun official leads => consistent model official ?_ leads
      rw [← user, userPrice, orElse_eq_orElse, orElse_eq_or, or_eq_none_iff] at isUser
      exact isUser.2

theorem find_eq (consistent : Consistent lookup) (toLowerCase : Name → Name)
    (model : Name) (provider : Option Name) :
    find toLowerCase lookup model provider = find toLowerCase lookup' model provider := by
  have spelled : ∀ name, findSpelled toLowerCase lookup name provider =
      findSpelled toLowerCase lookup' name provider := by
    intro name
    have cases : ∀ other, other ∈ otherCases toLowerCase lookup name ↔
        other ∈ otherCases toLowerCase lookup' name := by
      intro other
      simp only [otherCases, mem_filter, mem_eraseDups, List.mem_map, same.rows.mem_iff]
    rw [findSpelled, findSpelled, same.findListed_eq consistent]
    have agree := agreed_congr fun price => show
        price ∈ (otherCases toLowerCase lookup name).filterMap (lookup'.findListed · provider) ↔
          price ∈ (otherCases toLowerCase lookup' name).filterMap (lookup'.findListed · provider) by
      simp only [mem_filterMap, cases]
    rw [agree]
  rw [find, find]
  simp only [spelled]

end

end Reordered

/-- The prices between which `#find` decides. -/
def candidates (lookup : ModelPriceLookup ν) (model : Name) (provider : Option Name) : List (ModelPrice ν) :=
  match lookup.userPrice model provider with
  | some override => [override]
  | none =>
    match exactListing lookup model provider with
    | some exact => [entryPrice exact]
    | none =>
      let listings := lookup.listings model
      match soleListing listings with
      | some only => [entryPrice only]
      | none =>
        match lookup.vendorListing listings with
        | some own => [entryPrice own]
        | none =>
          -- The listings of vendors, or what the canonical listings lead to.
          if lookup.brought listings = [] then
            (listings.filter fun listing => lookup.isVendor listing.provider).map (entryPrice ·.entry)
          else (lookup.brought listings).flatMap fun official =>
            match official.2 with
            | some entry => [entryPrice entry]
            | none => (lookup.vendorAliases official.1).map entryPrice

theorem candidates_agree {provider : Option Name}
    (consistent : Consistent lookup) (is : lookup.findListed model provider = some price) :
    ∀ candidate ∈ candidates lookup model provider, candidate = price := by
  rw [findListed_eq] at is
  rw [candidates]
  cases user : lookup.userPrice model provider with
  | some override =>
    rw [user] at is
    simpa using is
  | none =>
    rw [user] at is
    cases isExact : exactListing lookup model provider with
    | some exact =>
      rw [isExact] at is
      simpa using is
    | none =>
      rw [isExact] at is
      dsimp only at is ⊢
      cases sole : soleListing (lookup.listings model) with
      | some only =>
        rw [catalogPrice_sole sole] at is
        simpa using is
      | none =>
        cases isOwn : lookup.vendorListing (lookup.listings model) with
        | some own =>
          rw [catalogPrice_own sole isOwn] at is
          simpa using is
        | none =>
          rcases catalogPrice_open sole isOwn with ⟨nothing, open'⟩ | ⟨last, ends, leads, open'⟩ | ⟨-, open'⟩
          · rw [open', vendorPrice, agreed_iff] at is
            rw [if_pos nothing]
            exact is.2
          · have member := mem_of_getLast? ends
            rw [open'] at is
            rw [if_neg (ne_nil_of_mem member)]
            intro candidate within
            obtain ⟨official, inside, here⟩ := mem_flatMap.mp within
            have unpriced : lookup.overrides.get? model = none := by
              rw [userPrice, orElse_eq_orElse, orElse_eq_or, or_eq_none_iff] at user
              exact user.2
            have same := consistent model last.1 unpriced leads official inside last member
            rw [is, officialPrice] at same
            cases entry : official.2 with
            | some found =>
              rw [entry] at same here
              rw [mem_singleton.mp here]
              exact Option.some.inj same
            | none =>
              rw [entry] at same here
              exact (agreed_iff.mp same).2 candidate here
          · rw [open'] at is
            cases is

/-- The prices between which a name is decided, spelled in any case. -/
def spelledCandidates (toLowerCase : Name → Name) (lookup : ModelPriceLookup ν) (name : Name)
    (provider : Option Name) : List (ModelPrice ν) :=
  if (lookup.findListed name provider).isSome then candidates lookup name provider
  else
    (((otherCases toLowerCase lookup name)).filter fun id => (lookup.findListed id provider).isSome).flatMap
      (candidates lookup · provider)

/-- The prices between which a search decides: those of the first name that has a price. -/
def searched (toLowerCase : Name → Name) (lookup : ModelPriceLookup ν) (model : Name) (provider : Option Name) :
    List (ModelPrice ν) :=
  match (priceNames model).find? fun name => (findSpelled toLowerCase lookup name provider).isSome with
  | some name => spelledCandidates toLowerCase lookup name provider
  | none => []

theorem find?_of_findSome? {α β : Type} {f : α → Option β} {values : List α} {result : β}
    (is : values.findSome? f = some result) :
    ∃ value, values.find? (fun value => (f value).isSome) = some value ∧ f value = some result := by
  induction values with
  | nil => cases is
  | cons first rest ih =>
    cases here : f first with
    | some found =>
      rw [findSome?_cons, here] at is
      exact ⟨first, by simp [here], here.trans is⟩
    | none =>
      rw [findSome?_cons, here] at is
      simpa [here] using ih is

theorem searched_agree {toLowerCase : Name → Name} {provider : Option Name} (consistent : Consistent lookup)
    (is : find toLowerCase lookup model provider = some price) :
    ∀ candidate ∈ searched toLowerCase lookup model provider, candidate = price := by
  obtain ⟨name, first, isPrice⟩ := find?_of_findSome? is
  rw [searched, first]
  dsimp only
  rw [spelledCandidates]
  rw [findSpelled] at isPrice
  cases exact : lookup.findListed name provider with
  | some known =>
    rw [exact] at isPrice
    rw [isSome_some, if_pos rfl, ← Option.some.inj isPrice]
    exact candidates_agree consistent exact
  | none =>
    rw [exact] at isPrice
    intro candidate member
    obtain ⟨id, inside, within⟩ := mem_flatMap.mp member
    obtain ⟨inCases, priced⟩ := mem_filter.mp inside
    obtain ⟨known, isKnown⟩ := isSome_iff_exists.mp priced
    rw [candidates_agree consistent isKnown candidate within]
    exact (agreed_iff.mp isPrice).2 known (mem_filterMap.mpr ⟨id, inCases, isKnown⟩)

end Decisions

section Moved
variable {lookup : ModelPriceLookup ν}

/-- The table with one provider at its end. -/
def moved (lookup : ModelPriceLookup ν) (provider : Name) : ModelPriceLookup ν :=
  { lookup with
    providers :=
      ⟨lookup.providers.entries.filter (·.1 ≠ provider) ++ lookup.providers.entries.filter (·.1 = provider), by
        have perm := List.filter_append_perm (·.1 = provider) lookup.providers.entries
        simp only [← decide_not] at perm
        exact ((List.perm_append_comm.trans perm).map Prod.fst).nodup_iff.mpr lookup.providers.keys_nodup⟩ }

theorem moved_reordered (lookup : ModelPriceLookup ν) (provider : Name) :
    Reordered lookup (moved lookup provider) := by
  refine ⟨?_, rfl⟩
  have perm := filter_append_perm (·.1 = provider) lookup.providers.entries
  simp only [← decide_not] at perm
  exact (perm.symm.trans perm_append_comm).flatMap_right _

theorem filter_key {K V : Type} [DecidableEq K] {m : OrderedMap K V} {key : K} {value : V}
    (is : m.get? key = some value) : m.entries.filter (·.1 = key) = [(key, value)] := by
  have member := (OrderedMap.mem_entries_iff _ _ _).mpr is
  have nodup := m.keys_nodup
  generalize m.entries = entries at member nodup
  induction entries with
  | nil => cases member
  | cons first rest ih =>
    rw [map_cons, nodup_cons] at nodup
    rcases mem_cons.mp member with rfl | later
    · rw [filter_cons_of_pos (by simp), filter_eq_nil_iff.mpr]
      intro other within
      simpa using fun same : other.1 = key => nodup.1 (mem_map.mpr ⟨other, within, same⟩)
    · have apart : first.1 ≠ key := fun same => nodup.1 (same ▸ mem_map_of_mem later)
      rw [filter_cons_of_neg (by simpa using apart), ih later nodup.2]

/-- The listing of the moved provider comes last. -/
theorem listings_moved {row : Listing ν} (member : row ∈ lookup.rows) :
    ∃ front, (moved lookup row.provider).listings row.model = front ++ [row] := by
  obtain ⟨models, isProvider, isModel⟩ := Option.bind_eq_some_iff.mp (mem_rows.mp member)
  have ofProvider : (models.entries.map fun model => (⟨row.provider, model.1, model.2⟩ : Listing ν)).filter
      (·.model = row.model) = [row] := by
    rw [List.filter_map]
    change ((models.entries.filter (·.1 = row.model)).map _) = _
    rw [filter_key isModel]
    rfl
  rw [listings, rows, moved]
  rw [List.flatMap_append, List.filter_append, filter_key isProvider, List.flatMap_singleton, ofProvider]
  exact ⟨_, rfl⟩

theorem brought_append (lookup : ModelPriceLookup ν) (front back : List (Listing ν)) :
    lookup.brought (front ++ back) = lookup.brought front ++ lookup.brought back := by
  rw [brought, filterMap_append]
  rfl

variable [DecidableEq ν]

/-- Each of the official listings that a model leads to sets the price in some order of the table. -/
theorem catalogPrice_moved {model official : Name} (sole : soleListing (lookup.listings model) = none)
    (leads : LeadsTo lookup model official) {one : Name × Option (ModelPriceEntry ν)}
    (member : one ∈ lookup.brought (lookup.listings model)) :
    ∃ lookup', Reordered lookup lookup' ∧ catalogPrice lookup' model = officialPrice lookup one := by
  obtain ⟨row, inListings, brings⟩ := mem_filterMap.mp member
  obtain ⟨inRows, isModel⟩ := mem_filter.mp inListings
  have isModel : row.model = model := by simpa using isModel
  have same := moved_reordered lookup row.provider
  obtain ⟨front, listings⟩ := listings_moved inRows
  refine ⟨moved lookup row.provider, same, ?_⟩
  generalize moved lookup row.provider = lookup' at same listings
  rw [isModel] at listings
  have ends : (lookup'.brought (lookup'.listings model)).getLast? = some one := by
    have last : lookup'.brought [row] = [one] := by
      rw [brought, ← same.resolveCanonical_eq, filterMap_cons, brings]
      rfl
    rw [listings, brought_append, last, getLast?_concat]
  have inBrought := mem_of_getLast? ends
  have leads' := same.leadsTo_iff.mp leads
  have noOwn : lookup'.vendorListing (lookup'.listings model) = none := by
    refine eq_none_iff_forall_ne_some.mpr fun own found => ?_
    obtain ⟨vendor, ⟨-, only⟩, listed⟩ := vendorListing_iff.mp found
    rw [← only one inBrought, leads'.1 one inBrought, leads'.2] at listed
    cases listed
  rw [same.officialPrice_eq]
  rcases catalogPrice_open (same.soleListing_eq model ▸ sole) noOwn with
    ⟨nothing, -⟩ | ⟨last, ends', -, is⟩ | ⟨⟨other, within, another, within', apart⟩, -⟩
  · rw [nothing] at inBrought
    cases inBrought
  · rw [ends, some.injEq] at ends'
    rw [is, ends']
  · exact absurd ((leads'.1 other within).trans (leads'.1 another within').symm) apart

end Moved

theorem foldl_addName (names : List Name) (first : Name) (known : List Name) :
    ∃ rest, names.foldl addName (first :: known) = first :: rest := by
  induction names generalizing known with
  | nil => exact ⟨known, rfl⟩
  | cons name names ih =>
    rw [foldl_cons, addName]
    split
    · exact ih known
    · exact ih (known ++ [name])

theorem priceNames_head (named : model ≠ []) : ∃ rest, priceNames model = model :: rest := by
  rw [priceNames]
  generalize [withoutSuffix EFFORT_SUFFIX model, withoutSuffix DATE_SUFFIX (withoutSuffix EFFORT_SUFFIX model),
    withoutSuffix DATE_SUFFIX model, withoutSuffix EFFORT_SUFFIX (withoutSuffix DATE_SUFFIX model)] = names
  obtain ⟨known, is⟩ := foldl_addName names model []
  rw [is]
  generalize List.flatMap _ (model :: known) = spelled
  obtain ⟨rest, is'⟩ := foldl_addName spelled model known
  rw [is', filter_cons_of_pos (by simpa [length_pos_iff] using named)]
  exact ⟨_, rfl⟩

section Spelled
variable [DecidableEq ν] {toLowerCase : Name → Name} {lookup : ModelPriceLookup ν}

theorem find_first (named : model ≠ [])
    (is : lookup.findListed model none = some price) : find toLowerCase lookup model none = some price := by
  obtain ⟨rest, names⟩ := priceNames_head named
  have first : findSpelled toLowerCase lookup model none = some price := by rw [findSpelled, is]
  rw [find, names, findSome?_cons, first]

theorem findListed_none (unpriced : lookup.overrides.get? model = none) :
    lookup.findListed model none = catalogPrice lookup model := by
  have user : lookup.userPrice model none = none := by
    rw [userPrice, unpriced]
    rfl
  rw [findListed_eq, user]
  rfl

/-- Where the search is settled, the official listings that a model leads to have one price. -/
theorem settled_official {model official : Name} (settled : ∀ lookup', Reordered lookup lookup' →
      find toLowerCase lookup model none = find toLowerCase lookup' model none)
    (named : model ≠ []) (unpriced : lookup.overrides.get? model = none) (leads : LeadsTo lookup model official)
    {one other : Name × Option (ModelPriceEntry ν)} (isOne : one ∈ lookup.brought (lookup.listings model))
    (isOther : other ∈ lookup.brought (lookup.listings model)) {price price' : ModelPrice ν}
    (is : officialPrice lookup one = some price) (is' : officialPrice lookup other = some price') :
    price = price' := by
  have found : ∀ {one : Name × Option (ModelPriceEntry ν)} {price : ModelPrice ν},
      soleListing (lookup.listings model) = none → one ∈ lookup.brought (lookup.listings model) →
      officialPrice lookup one = some price → find toLowerCase lookup model none = some price := by
    intro one price sole member is
    obtain ⟨lookup', same, catalog⟩ := catalogPrice_moved sole leads member
    rw [settled lookup' same]
    refine find_first named ?_
    rw [findListed_none (same.overrides ▸ unpriced), catalog, is]
  cases sole : soleListing (lookup.listings model) with
  | none =>
    have twice := (found sole isOne is).symm.trans (found sole isOther is')
    exact Option.some.inj twice
  | some only =>
    obtain ⟨listing, alone⟩ := soleListing_single sole
    have few : (lookup.brought (lookup.listings model)).length ≤ 1 := by
      rw [alone]
      exact length_filterMap_le _ [listing]
    have single : one = other := by
      obtain ⟨n, within, rfl⟩ := getElem_of_mem isOne
      obtain ⟨n', within', rfl⟩ := getElem_of_mem isOther
      have same : n = n' := by omega
      subst same
      rfl
    rw [single, is'] at is
    exact (Option.some.inj is).symm

end Spelled

/-- No search depends on the order of the table, and none takes one of several different prices. -/
structure Settled [DecidableEq ν] (toLowerCase : Name → Name) (lookup : ModelPriceLookup ν) : Prop where
  ordered : ∀ lookup', Reordered lookup lookup' → ∀ model provider,
    find toLowerCase lookup model provider = find toLowerCase lookup' model provider
  decided : ∀ model provider price, find toLowerCase lookup model provider = some price →
    ∀ candidate ∈ searched toLowerCase lookup model provider, candidate = price

section Tables
variable [DecidableEq ν] (toLowerCase : Name → Name) (lookup : ModelPriceLookup ν)

end Tables

def name (text : String) : Name := Utf16.ofString text

def sampleEntry (price : Nat) (canonical : Canonical) : ModelPriceEntry Nat :=
  ⟨price, price, none, none, canonical⟩

def sampleLookup (table : List (String × List (String × ModelPriceEntry Nat))) : ModelPriceLookup Nat :=
  { providers := OrderedMap.empty.setAll (table.map fun provider =>
      (name provider.1, OrderedMap.empty.setAll (provider.2.map fun model => (name model.1, model.2))))
    overrides := .empty }

/-- An official listing and that of a reseller. -/
def settledTable : ModelPriceLookup Nat :=
  sampleLookup [("openai", [("gpt", sampleEntry 1 .official)]),
    ("reseller", [("gpt", sampleEntry 3 (.resale (name "openai/gpt")))])]

/-- Two resellers name two old models, both of which their vendor has replaced with a model it does not
list. -/
def doubtfulTable : ModelPriceLookup Nat :=
  sampleLookup [("v", [("old1", sampleEntry 1 (.resale (name "v/new"))), ("old2", sampleEntry 2 (.resale (name "v/new")))]),
    ("p1", [("m", sampleEntry 5 (.resale (name "v/old1")))]), ("p2", [("m", sampleEntry 6 (.resale (name "v/old2")))])]

end CodexHost.Guarantees.ModelPriceOrder
