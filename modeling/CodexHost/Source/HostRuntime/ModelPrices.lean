import CodexHost.Foundation.JsonString
import CodexHost.Foundation.OrderedMap

/-!
# Model prices

`ModelPriceLookup` and `priceNames` of `packages/host-runtime/src/model-prices.ts`. Names are their code
units; numbers are values that can be compared, and `toLowerCase` is a parameter. Objects and Maps keep
the order in which their members were inserted.
-/
namespace CodexHost.Source.HostRuntime.ModelPrices
open Foundation

abbrev Name := Utf16

/-- `true`, the official `provider/model` ID of a resale listing, or nothing. -/
inductive Canonical where
  | absent | official | resale (id : Name)
  deriving DecidableEq, Repr

variable {ν : Type}

structure ModelPriceEntry (ν : Type) where
  input : ν
  output : ν
  cacheRead : Option ν
  cacheWrite : Option ν
  canonical : Canonical

structure ModelPrice (ν : Type) where
  input : ν
  output : ν
  cacheRead : Option ν
  cacheWrite : Option ν
  cacheWrite1h : Option ν
  deriving DecidableEq

def entryPrice (entry : ModelPriceEntry ν) : ModelPrice ν :=
  { input := entry.input, output := entry.output
    cacheRead := entry.cacheRead, cacheWrite := entry.cacheWrite, cacheWrite1h := none }

def samePrice [DecidableEq ν] (left right : ModelPrice ν) : Bool :=
  left.input = right.input && left.output = right.output && left.cacheRead = right.cacheRead &&
    left.cacheWrite = right.cacheWrite && left.cacheWrite1h = right.cacheWrite1h

def isDigit (unit : UInt16) : Bool := 48 ≤ unit.toNat && unit.toNat ≤ 57

/-- A pattern of characters, in which `#` is a digit. -/
def fits (pattern : String) (text : Name) : Bool :=
  text.length = pattern.length && (pattern.toList.zip text).all fun place =>
      if place.1 = '#' then isDigit place.2 else place.2.toNat = place.1.toNat

def DATE_SUFFIX : List String := ["-########", "-####-##-##"]

def EFFORT_SUFFIX : List String := ["-minimal", "-low", "-medium", "-high", "-xhigh"]

/-- `SUFFIX.test(name)` -/
def hasSuffix (suffixes : List String) (name : Name) : Bool :=
  suffixes.any fun suffix => suffix.length ≤ name.length && fits suffix (name.drop (name.length - suffix.length))

/-- `name.replace(SUFFIX, "")` -/
def withoutSuffix (suffixes : List String) (name : Name) : Name :=
  match suffixes.find? fun suffix => hasSuffix [suffix] name with
  | some suffix => name.take (name.length - suffix.length)
  | none => name

/-- `name.replace(/(\d)\.(\d)/gu, "$1-$2")` -/
def dotsToDashes : Name → Name
  | first :: dot :: last :: rest =>
    if isDigit first && dot.toNat = 46 && isDigit last then first :: 45 :: last :: dotsToDashes rest
    else first :: dotsToDashes (dot :: last :: rest)
  | short => short

/-- A short version number, as `(\d{1,2})-(\d{1,2})(?!\d)` finds it here, written with a dot. -/
def versionHere (text : Name) : Option (Name × Name) :=
  let major := text.takeWhile isDigit
  match text.drop major.length with
  | dash :: after =>
    let minor := after.takeWhile isDigit
    if dash.toNat = 45 && 0 < major.length && major.length ≤ 2 && 0 < minor.length && minor.length ≤ 2 then
      some (major ++ 46 :: minor, after.drop minor.length)
    else none
  | [] => none

/-- `name.replace(/(?<!\d)(\d{1,2})-(\d{1,2})(?!\d)/gu, "$1.$2")`; every step reads a unit at least. -/
def dashesToDots : Nat → Bool → Name → Name
  | steps + 1, afterDigit, unit :: rest =>
    match if afterDigit then none else versionHere (unit :: rest) with
    | some (version, after) => version ++ dashesToDots steps true after
    | none => unit :: dashesToDots steps (isDigit unit) rest
  | _, _, text => text

/-- `names.add(name)` -/
def addName (names : List Name) (name : Name) : List Name := if name ∈ names then names else names ++ [name]

/-- The model name as given, then the other spellings a catalog may list it under, in order. -/
def priceNames (model : Name) : List Name :=
  let noEffort := withoutSuffix EFFORT_SUFFIX model
  let noDate := withoutSuffix DATE_SUFFIX model
  let names := [noEffort, withoutSuffix DATE_SUFFIX noEffort, noDate,
    withoutSuffix EFFORT_SUFFIX noDate].foldl addName [model]
  let spellings := fun name : Name =>
    -- Only short version numbers, never a date's digits.
    if hasSuffix DATE_SUFFIX name then [dotsToDashes name]
    else [dotsToDashes name, dashesToDots name.length false name]
  ((names.flatMap spellings).foldl addName names).filter (0 < ·.length)

abbrev Providers (ν : Type) := OrderedMap Name (OrderedMap Name (ModelPriceEntry ν))

structure ModelPriceLookup (ν : Type) where
  providers : Providers ν
  overrides : OrderedMap Name (ModelPrice ν)

structure Listing (ν : Type) where
  provider : Name
  model : Name
  entry : ModelPriceEntry ν

/-- `id.slice(0, id.indexOf("/"))`, which drops the last unit of an ID without a slash. -/
def vendorOf (id : Name) : Name := if 47 ∈ id then id.takeWhile (· ≠ 47) else id.dropLast

/-- `id.slice(id.indexOf("/") + 1)` -/
def modelOf (id : Name) : Name := if 47 ∈ id then (id.dropWhile (· ≠ 47)).tail else id

namespace ModelPriceLookup

section Tables
variable (lookup : ModelPriceLookup ν)

/-- The table in the order in which the constructor reads it. -/
def rows : List (Listing ν) :=
  lookup.providers.entries.flatMap fun provider =>
    provider.2.entries.map fun model => ⟨provider.1, model.1, model.2⟩

/-- `#vendors.has(provider)`: providers that make models, as the catalog itself says. -/
def isVendor (provider : Name) : Bool :=
  lookup.rows.any fun row =>
    match row.entry.canonical with
    | .official => row.provider = provider
    | .resale id => 47 ∈ id && vendorOf id = provider
    | .absent => false

/-- `#listings.get(model)` -/
def listings (model : Name) : List (Listing ν) := lookup.rows.filter (·.model = model)

/-- `this.#providers[provider]?.[model]` -/
def listed (provider model : Name) : Option (ModelPriceEntry ν) :=
  (lookup.providers.get? provider).bind (·.get? model)

/-- The loop of `#resolveCanonical`. -/
def resolve : Nat → List Name → Name → Option (ModelPriceEntry ν) → Name × Option (ModelPriceEntry ν)
  | steps + 1, seen, id, entry =>
    if id ∈ seen then (id, entry)
    else
      match lookup.listed (vendorOf id) (modelOf id) with
      | none => (id, entry)
      | some found =>
        match found.canonical with
        | .resale next => if next = id then (id, some found) else resolve steps (id :: seen) next (some found)
        | _ => (id, some found)
  | 0, _, id, entry => (id, entry)

/-- The final official ID and the last listed entry on the way. Every ID but the first is the canonical
ID of a row, so there are enough steps. -/
def resolveCanonical (start : Name) : Name × Option (ModelPriceEntry ν) :=
  lookup.resolve (lookup.rows.length + 2) [] start none

/-- What the canonical listings lead to, in their order. -/
def brought (listings : List (Listing ν)) : List (Name × Option (ModelPriceEntry ν)) :=
  listings.filterMap fun listing =>
    match listing.entry.canonical with
    | .official => some (listing.provider ++ 47 :: listing.model, some listing.entry)
    | .resale id => some (lookup.resolveCanonical id)
    | .absent => none

/-- The aliases under which a vendor lists an official model. -/
def vendorAliases (official : Name) : List (ModelPriceEntry ν) :=
  ((lookup.providers.get? (vendorOf official)).elim [] (·.entries)).filterMap fun model =>
    match model.2.canonical with
    | .resale id =>
      if (lookup.resolveCanonical id).1 ≠ official ∨ model.1 = official then none else some model.2
    | _ => none

end Tables

section Prices
variable [DecidableEq ν] (toLowerCase : Name → Name) (lookup : ModelPriceLookup ν)

/-- The loops that return the price all candidates agree on. -/
def agreed : Option (ModelPrice ν) → List (ModelPrice ν) → Option (ModelPrice ν)
  | found, [] => found
  | found, price :: rest =>
    if found.any fun known => !samePrice known price then none else agreed (some price) rest

def vendorPrice (listings : List (Listing ν)) : Option (ModelPrice ν) :=
  agreed none ((listings.filter fun listing => lookup.isVendor listing.provider).map (entryPrice ·.entry))

def vendorAliasPrice (official : Name) : Option (ModelPrice ν) :=
  agreed none ((lookup.vendorAliases official).map entryPrice)

/-- The price the user set for this model ID (or `provider/model`), without any catalog price. -/
def userPrice (model : Name) (provider : Option Name) : Option (ModelPrice ν) :=
  ((provider.filter (· ≠ [])).bind fun provider => lookup.overrides.get? (provider ++ 47 :: model)) <|>
    lookup.overrides.get? model

/-- A provider's own listing of an ID. -/
def listedBy (listings : List (Listing ν)) (provider : Name) : Option (ModelPriceEntry ν) :=
  (listings.find? (·.provider = provider)).map (·.entry)

/-- The only listing, unless it names a canonical model. -/
def soleListing : List (Listing ν) → Option (ModelPriceEntry ν)
  | [only] =>
    match only.entry.canonical with
    | .resale _ => none
    | _ => some only.entry
  | _ => none

def officials (listings : List (Listing ν)) : OrderedMap Name (Option (ModelPriceEntry ν)) :=
  OrderedMap.empty.setAll (lookup.brought listings)

/-- The own listing of the one vendor of every official ID. -/
def vendorListing (listings : List (Listing ν)) : Option (ModelPriceEntry ν) :=
  match ((lookup.officials listings).keys.map vendorOf).eraseDups with
  | [vendor] => listedBy listings vendor
  | _ => none

/-- `#find` -/
def findListed (model : Name) (provider : Option Name) : Option (ModelPrice ν) :=
  match lookup.userPrice model provider with
  | some override => some override
  | none =>
    match (provider.filter (· ≠ [])).bind (lookup.listed · model) with
    | some exact => some (entryPrice exact)
    | none =>
      let listings := lookup.listings model
      match soleListing listings with
      | some only => some (entryPrice only)
      | none =>
        match lookup.vendorListing listings with
        | some own => some (entryPrice own)
        | none =>
          match (lookup.officials listings).entries with
          | [] => lookup.vendorPrice listings
          | [(official, officialEntry)] =>
            match officialEntry <|> listedBy listings (vendorOf official) with
            | some entry => some (entryPrice entry)
            | none => lookup.vendorAliasPrice official
          | _ => none

/-- `#foldedIds.get(model.toLowerCase())` without the model itself. -/
def otherCases (model : Name) : List Name :=
  (((lookup.rows.filter fun row => toLowerCase row.model = toLowerCase model).map (·.model)).eraseDups).filter
    (· ≠ model)

def findSpelled (model : Name) (provider : Option Name) : Option (ModelPrice ν) :=
  match lookup.findListed model provider with
  | some exact => some exact
  | none => agreed none ((otherCases toLowerCase lookup model).filterMap (lookup.findListed · provider))

/-- The price of a model as a Harness names it. -/
def find (model : Name) (provider : Option Name) : Option (ModelPrice ν) :=
  (priceNames model).findSome? (findSpelled toLowerCase lookup · provider)

end Prices

end ModelPriceLookup

end CodexHost.Source.HostRuntime.ModelPrices
