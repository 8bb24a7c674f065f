import CodexHost.Source.DeepseekHarness.ControlJson

/-!
# Control JSON is measured as it would be written

Each part of the recursion has a cost: the nodes and bytes that it adds, and whether its depth and its
arrays are admitted. It adds them when they fit and fails with a limit when they do not, so the cost of a
value is that of its JSON text. A visit that succeeds has seen no object inside itself.
-/
namespace CodexHost.Guarantees.ControlJsonSize
open Foundation Source.DeepseekHarness Source.DeepseekHarness.ControlJson List Json

section Specification
variable {A : Type} (heap : A → Object A)

/-- How numbers are written; nothing here reads them. -/
def printed : NumberFormat FiniteNumber where
  write value := value.text
  read _ := none

/-- The value is this JSON value, with every shared object at each of its places. -/
inductive Denotes : Value A → Json FiniteNumber → Prop where
  | null : Denotes .null .null
  | boolean (value : Bool) : Denotes (.boolean value) (.bool value)
  | string (value : Utf16) : Denotes (.string value) (.string value)
  | number (value : FiniteNumber) : Denotes (.number value) (.number value)
  | array {address : A} {items : List (Value A)} {values : List (Json FiniteNumber)}
      (here : heap address = .array items) (inside : List.Forall₂ Denotes items values) :
      Denotes (.object address) (.array values)
  | record {address : A} {members : List (Option Utf16 × Value A)}
      {values : List (Utf16 × Json FiniteNumber)} (here : heap address = .record true members)
      (keys : members.map Prod.fst = values.map fun member => some member.1)
      (inside : List.Forall₂ Denotes (members.map Prod.snd) (values.map Prod.snd)) :
      Denotes (.object address) (.object values)

/-- The values that an object holds. -/
def held : Object A → List (Value A)
  | .array items => items
  | .record _ members => members.map Prod.snd

/-- The first object holds the second. -/
def Holds (outer inner : A) : Prop := .object inner ∈ held (heap outer)

/-- The value is this object, or it is somewhere inside. -/
def Contains (value : Value A) (address : A) : Prop :=
  ∃ root, value = .object root ∧ Relation.ReflTransGen (Holds heap) root address

/-- Some object of the value is inside itself. -/
def Cyclic (value : Value A) : Prop :=
  ∃ address, Contains heap value address ∧ Relation.TransGen (Holds heap) address address

/-- The bounds on a value other than its bytes, when this many nodes are spent already. -/
def Bounded (nodes : Nat) (json : Json FiniteNumber) : Prop :=
  json.depth ≤ MAX_JSON_DEPTH ∧ json.ArraysWithin MAX_COLLECTION_ITEMS ∧ nodes + json.nodes ≤ MAX_JSON_NODES

end Specification

section Strings

variable {unit next : UInt16}

theorem isPair_iff : isPair unit.toNat next.toNat = true ↔
    Utf16.isHighSurrogate unit = true ∧ Utf16.isLowSurrogate next = true := by
  simp only [isPair, Utf16.isHighSurrogate, Utf16.isLowSurrogate, Bool.and_eq_true, decide_eq_true_eq]
  omega

theorem unitBytes_small : ∀ code, code < 0x80 →
    unitBytes code = utf8Size (JsonText.unitText (UInt16.ofNat code)) := by decide +kernel

/-- What the source counts for a unit is what its text has. -/
theorem unitBytes_eq (unit : UInt16) : unitBytes unit.toNat = utf8Size (JsonText.unitText unit) := by
  by_cases small : unit.toNat < 0x80
  · rw [unitBytes_small _ small, UInt16.ofNat_toNat]
  · have other : ∀ code : UInt16, code.toNat < 0x80 → unit ≠ code := fun code below same =>
      small (same ▸ below)
    rw [unitBytes, if_neg (by omega), JsonText.unitText, if_neg (other 0x22 (by decide)),
      if_neg (other 0x5C (by decide)), if_neg (other 0x08 (by decide)), if_neg (other 0x09 (by decide)),
      if_neg (other 0x0A (by decide)), if_neg (other 0x0C (by decide)), if_neg (other 0x0D (by decide))]
    by_cases surrogate : 0xd800 ≤ unit.toNat ∧ unit.toNat ≤ 0xdfff
    · have escaped : unit.toNat < 0x20 ∨ Utf16.isHighSurrogate unit = true ∨ Utf16.isLowSurrogate unit = true := by
        simp only [Utf16.isHighSurrogate, Utf16.isLowSurrogate, Bool.and_eq_true, decide_eq_true_eq]
        omega
      rw [if_pos (.inr surrogate), if_pos escaped, utf8Size_cons, utf8Size_cons, utf8Size_hexText]
      rfl
    · have high : Utf16.isHighSurrogate unit = false := by
        simp only [Utf16.isHighSurrogate, Bool.and_eq_false_iff, decide_eq_false_iff_not]
        omega
      have low : Utf16.isLowSurrogate unit = false := by
        simp only [Utf16.isLowSurrogate, Bool.and_eq_false_iff, decide_eq_false_iff_not]
        omega
      have character := utf8Size_unitChar high low
      have plain : ¬ (unit.toNat < 0x20 ∨ Utf16.isHighSurrogate unit = true ∨
          Utf16.isLowSurrogate unit = true) := by
        rw [high, low]
        simp only [Bool.false_eq_true, or_false]
        omega
      rw [if_neg (by omega), if_neg (by omega), if_neg plain, utf8Size_cons, character, if_neg small]
      change _ = _ + 0
      split_ifs <;> omega

theorem stringText_pair (pair : isPair unit.toNat next.toNat = true) (rest : Utf16) :
    utf8Size (JsonText.stringText (unit :: next :: rest)) = 4 + utf8Size (JsonText.stringText rest) := by
  obtain ⟨high, low⟩ := isPair_iff.1 pair
  rw [JsonText.stringText, if_pos ⟨high, low⟩, utf8Size_cons, utf8Size_pairChar high low]

theorem stringText_single (single : ¬ isPair unit.toNat next.toNat = true)
    (rest : Utf16) : utf8Size (JsonText.stringText (unit :: next :: rest)) =
      unitBytes unit.toNat + utf8Size (JsonText.stringText (next :: rest)) := by
  rw [JsonText.stringText, if_neg fun pair => single (isPair_iff.2 pair), utf8Size_append, unitBytes_eq]

/-- The loop counts the whole text, or it has stopped beyond the limit before its end. -/
theorem stringBytesFrom_eq (bytes : Nat) (units : Utf16) :
    stringBytesFrom bytes units = bytes + utf8Size (JsonText.stringText units) ∨
      MAX_SESSION_PROJECTION_BYTES < stringBytesFrom bytes units ∧
        MAX_SESSION_PROJECTION_BYTES < bytes + utf8Size (JsonText.stringText units) := by
  induction bytes, units using stringBytesFrom.induct with
  | case1 bytes => exact .inl rfl
  | case2 bytes unit => exact .inl (by rw [stringBytesFrom, JsonText.stringText, unitBytes_eq])
  | case3 bytes unit next rest pair beyond =>
    rw [stringBytesFrom, if_pos pair, if_pos beyond, stringText_pair pair rest]
    exact .inr ⟨beyond, by omega⟩
  | case4 bytes unit next rest pair within ih =>
    rw [stringBytesFrom, if_pos pair, if_neg within, stringText_pair pair rest, ← Nat.add_assoc]
    exact ih
  | case5 bytes unit next rest single beyond =>
    rw [stringBytesFrom, if_neg single, if_pos beyond, stringText_single single rest]
    exact .inr ⟨beyond, by omega⟩
  | case6 bytes unit next rest single within ih =>
    rw [stringBytesFrom, if_neg single, if_neg within, stringText_single single rest, ← Nat.add_assoc]
    exact ih

/-- A string counts as its text does, as far as the limit can tell. -/
theorem jsonStringBytes_eq (value : Utf16) : jsonStringBytes value = quotedSize value ∨
    MAX_SESSION_PROJECTION_BYTES < jsonStringBytes value ∧ MAX_SESSION_PROJECTION_BYTES < quotedSize value := by
  rw [quotedSize_eq]
  exact stringBytesFrom_eq 2 value

end Strings

section Costs
variable {A : Type}

/-- What a part of the recursion adds, and whether its bounds admit it. -/
structure Cost where
  admitted : Prop
  nodes : Nat
  bytes : Nat

def Cost.andThen (first second : Cost) : Cost where
  admitted := first.admitted ∧ second.admitted
  nodes := first.nodes + second.nodes
  bytes := first.bytes + second.bytes

def Cost.total (costs : List Cost) : Cost := costs.foldr Cost.andThen ⟨True, 0, 0⟩

/-- The counts stay within their limits. -/
def Cost.Fits (cost : Cost) (m : Measure A) : Prop :=
  cost.admitted ∧ m.nodes + cost.nodes ≤ MAX_JSON_NODES ∧ m.bytes + cost.bytes ≤ MAX_SESSION_PROJECTION_BYTES

def charged (m : Measure A) (cost : Cost) : Measure A :=
  { m with nodes := m.nodes + cost.nodes, bytes := m.bytes + cost.bytes }

/-- The answer charges the cost when it fits, and is a limit's error when it does not. -/
def Answers (cost : Cost) (m : Measure A) (answer : Except StoreError (Measure A)) : Prop :=
  cost.Fits m ∧ answer = .ok (charged m cost) ∨
    ¬ cost.Fits m ∧ ∃ message, answer = .error ⟨.resourceLimit, message⟩

/-- A part of the recursion has this cost, inside of these objects. -/
def Charges (seen : List A) (run : Measure A → Except StoreError (Measure A)) (cost : Cost) : Prop :=
  ∀ m, m.seen = seen → m.nodes ≤ MAX_JSON_NODES → m.bytes ≤ MAX_SESSION_PROJECTION_BYTES →
    Answers cost m (run m)

theorem Charges.congr {seen : List A} {run : Measure A → Except StoreError (Measure A)} {first second : Cost}
    (charges : Charges seen run first) (admitted : first.admitted ↔ second.admitted)
    (nodes : first.nodes = second.nodes) (bytes : first.bytes = second.bytes) : Charges seen run second := by
  obtain ⟨_, _, _⟩ := second
  obtain rfl : _ = _ := propext admitted
  obtain rfl : _ = _ := nodes
  obtain rfl : _ = _ := bytes
  exact charges

theorem charges_add (seen : List A) (amount : Nat) : Charges seen (add amount) ⟨True, 0, amount⟩ := by
  intro m _ nodes _
  rw [add]
  split
  next beyond =>
    refine .inr ⟨fun fits => ?_, _, rfl⟩
    have within := fits.2.2
    dsimp only at within
    omega
  next within => exact .inl ⟨⟨trivial, by simpa using nodes, by simpa using within⟩, rfl⟩

/-- A string is added as its text counts. -/
theorem charges_string (seen : List A) (value : Utf16) (more : Nat) :
    Charges seen (add (jsonStringBytes value + more)) ⟨True, 0, quotedSize value + more⟩ := by
  rcases jsonStringBytes_eq value with same | ⟨beyond, long⟩
  · exact same ▸ charges_add seen _
  · intro m _ _ _
    rw [add, if_pos (by omega)]
    refine .inr ⟨fun fits => ?_, _, rfl⟩
    have within := fits.2.2
    dsimp only at within
    omega

theorem Charges.andThen {seen : List A} {first second : Measure A → Except StoreError (Measure A)}
    {one two : Cost} (here : Charges seen first one) (there : Charges seen second two) :
    Charges seen (fun m => (first m).bind second) (one.andThen two) := by
  intro m inside nodes bytes
  rcases here m inside nodes bytes with ⟨fits, done⟩ | ⟨unfit, message, failed⟩
  · have next := there (charged m one) inside fits.2.1 fits.2.2
    have same : two.Fits (charged m one) ↔ (one.andThen two).Fits m := by
      simp only [Cost.Fits, Cost.andThen, charged, Nat.add_assoc]
      exact ⟨fun ⟨a, b, c⟩ => ⟨⟨fits.1, a⟩, b, c⟩, fun ⟨a, b, c⟩ => ⟨a.2, b, c⟩⟩
    have sum : charged (charged m one) two = charged m (one.andThen two) := by
      simp only [charged, Cost.andThen, Nat.add_assoc]
    dsimp only
    rw [done]
    rw [Answers, same, sum] at next
    exact next
  · dsimp only
    rw [failed]
    refine .inr ⟨fun fits => unfit ⟨fits.1.1, ?_, ?_⟩, message, rfl⟩
    · have within := fits.2.1
      simp only [Cost.andThen] at within
      omega
    · have within := fits.2.2
      simp only [Cost.andThen] at within
      omega

theorem charges_inTurn {B : Type} {seen : List A} {visit : B → Measure A → Except StoreError (Measure A)}
    {parts : List B} {costs : List Cost}
    (each : List.Forall₂ (fun part cost => Charges seen (visit part) cost) parts costs) :
    Charges seen (inTurn visit parts) (Cost.total costs) := by
  induction each with
  | nil =>
    intro m _ nodes bytes
    exact .inl ⟨⟨trivial, nodes, bytes⟩, rfl⟩
  | cons here _ ih => exact here.andThen ih

theorem charges_node {seen : List A} {run : Measure A → Except StoreError (Measure A)} {cost : Cost}
    (charges : Charges seen run cost) :
    Charges seen (fun m => if m.nodes + 1 > MAX_JSON_NODES then .error boundExceeded
      else run { m with nodes := m.nodes + 1 }) ⟨cost.admitted, 1 + cost.nodes, cost.bytes⟩ := by
  intro m inside nodes bytes
  dsimp only
  split
  next beyond =>
    refine .inr ⟨fun fits => ?_, _, rfl⟩
    have within := fits.2.1
    dsimp only at within
    omega
  next within =>
    have next := charges { m with nodes := m.nodes + 1 } inside (by simpa using within) bytes
    simp only [Answers, Cost.Fits, charged, Nat.add_assoc] at next
    exact next

theorem charges_object [DecidableEq A] {seen : List A} {address : A} (fresh : address ∉ seen)
    {run : Measure A → Except StoreError (Measure A)} {cost : Cost}
    (charges : Charges (address :: seen) run cost) :
    Charges seen (fun m => if address ∈ m.seen then .error cyclicData
      else (run { m with seen := address :: m.seen }).map
        fun m => { m with seen := m.seen.erase address }) cost := by
  intro m inside nodes bytes
  dsimp only
  rw [if_neg (inside ▸ fresh)]
  rcases charges { m with seen := address :: m.seen } (by rw [inside]) nodes bytes with
    ⟨fits, done⟩ | ⟨unfit, message, failed⟩
  · refine .inl ⟨fits, ?_⟩
    rw [done]
    simp [Except.map, charged]
  · exact .inr ⟨unfit, message, by rw [failed]; rfl⟩

end Costs

variable {levels : Nat}

section Cycles
variable {A : Type} {heap : A → Object A}

theorem no_cycle {B : Type} {relation : B → B → Prop} {b : B} (acc : Acc relation b) :
    ¬ Relation.TransGen relation b b := by
  have deep := acc.transGen
  clear acc
  induction deep with
  | intro b _ ih => exact fun cycle => ih b cycle cycle

/-- An object that is a finite value is not inside itself, and neither is anything in it. -/
def Founded (heap : A → Object A) (address : A) : Prop := Acc (fun inner outer => Holds heap outer inner) address

theorem Founded.acyclic {address : A} (founded : Founded heap address) :
    ¬ Relation.TransGen (Holds heap) address address := fun cycle =>
  no_cycle founded (Relation.transGen_swap.1 cycle)

theorem Founded.inside {outer inner : A} (founded : Founded heap outer)
    (contains : Relation.ReflTransGen (Holds heap) outer inner) : Founded heap inner := by
  induction contains with
  | refl => exact founded
  | tail _ holds ih => exact ih.inv holds

/-- The objects inside a value are none of those that it is inside of. -/
def Fresh (heap : A → Object A) (seen : List A) (value : Value A) : Prop :=
  ∀ address, Contains heap value address → address ∉ seen

theorem Fresh.held {seen : List A} {address : A} (fresh : Fresh heap seen (.object address))
    (founded : Founded heap address) {value : Value A} (member : value ∈ held (heap address)) :
    Fresh heap (address :: seen) value := by
  rintro inner ⟨root, rfl, path⟩ known
  rcases mem_cons.1 known with rfl | old
  · exact founded.acyclic (Relation.TransGen.head' member path)
  · exact fresh inner ⟨address, rfl, .head member path⟩ old

/-- A visit of parts in turn that succeeds has visited each of them. -/
theorem inTurn_ok {B : Type} {visit : B → Measure A → Except StoreError (Measure A)} {parts : List B}
    {m after : Measure A} (done : inTurn visit parts m = .ok after) {part : B} (member : part ∈ parts) :
    ∃ before result, visit part before = .ok result := by
  induction parts generalizing m with
  | nil => cases member
  | cons first rest ih =>
    rw [inTurn] at done
    cases here : visit first m with
    | error error =>
      rw [here] at done
      cases done
    | ok next =>
      rw [here] at done
      rcases mem_cons.1 member with rfl | later
      · exact ⟨m, next, here⟩
      · exact ih done later

theorem bind_ok {first : Except StoreError (Measure A)} {next : Measure A → Except StoreError (Measure A)}
    {after : Measure A} (done : first.bind next = .ok after) :
    ∃ between, first = .ok between ∧ next between = .ok after := by
  cases first with
  | error error => cases done
  | ok between => exact ⟨between, rfl, done⟩

/-- An object that was visited had all that it holds visited. -/
theorem visitObject_ok {visit : Value A → Measure A → Except StoreError (Measure A)} {object : Object A}
    {m after : Measure A} (done : visitObject visit object m = .ok after) {value : Value A}
    (member : value ∈ held object) : ∃ before result, visit value before = .ok result := by
  cases object with
  | array items =>
    rw [visitObject] at done
    split at done
    · cases done
    · obtain ⟨_, _, visited⟩ := bind_ok done
      exact inTurn_ok visited member
  | record isPlain members =>
    cases isPlain with
    | false => cases done
    | true =>
      obtain ⟨_, _, visited⟩ := bind_ok done
      obtain ⟨part, inside, rfl⟩ := mem_map.1 member
      obtain ⟨before, result, visit⟩ := inTurn_ok visited inside
      rw [visitMember] at visit
      split at visit
      · cases visit
      · obtain ⟨between, _, there⟩ := bind_ok visit
        exact ⟨between, result, there⟩

theorem visit_founded [DecidableEq A] {address : A} {m after : Measure A}
    (done : visit heap levels (.object address) m = .ok after) : Founded heap address := by
  induction levels generalizing address m after with
  | zero => cases done
  | succ levels ih =>
    rw [visit] at done
    split at done
    · cases done
    · dsimp only at done
      split at done
      · cases done
      · cases visited : visitObject (visit heap levels) (heap address)
            { bytes := m.bytes, nodes := m.nodes + 1, seen := address :: m.seen } with
        | error error =>
          rw [visited] at done
          cases done
        | ok result =>
          refine Acc.intro address fun inner holds => ?_
          obtain ⟨_, _, there⟩ := visitObject_ok visited holds
          exact ih there

end Cycles

section Sizes
variable {A : Type} {heap : A → Object A}

/-- What a JSON value costs, this many levels above the bound on the depth. -/
def costOf (levels : Nat) (json : Json FiniteNumber) : Cost where
  admitted := json.depth < levels ∧ json.ArraysWithin MAX_COLLECTION_ITEMS
  nodes := json.nodes
  bytes := json.size printed

def costOfMember (levels : Nat) (member : Utf16 × Json FiniteNumber) : Cost where
  admitted := member.2.depth < levels ∧ member.2.ArraysWithin MAX_COLLECTION_ITEMS
  nodes := member.2.nodes
  bytes := memberSize printed member

theorem total_items (levels : Nat) (values : List (Json FiniteNumber)) :
    let total := Cost.total (values.map (costOf levels))
    (total.admitted ↔ depthItems values < levels + 1 ∧
      Json.ArraysWithinItems MAX_COLLECTION_ITEMS values) ∧
    total.nodes = nodesItems values ∧ total.bytes = (values.map (size printed)).sum := by
  induction values with
  | nil => simp [Cost.total, depthItems, Json.ArraysWithinItems, nodesItems]
  | cons value values ih =>
    obtain ⟨admitted, nodes, bytes⟩ := ih
    simp only [Cost.total, map_cons, foldr_cons, Cost.andThen, costOf, depthItems,
      Json.ArraysWithinItems, nodesItems, sum_cons] at *
    refine ⟨?_, by omega, by omega⟩
    rw [admitted]
    constructor
    · rintro ⟨⟨shallow, narrow⟩, deep, rest⟩
      exact ⟨by omega, narrow, rest⟩
    · rintro ⟨deep, narrow, rest⟩
      exact ⟨⟨by omega, narrow⟩, by omega, rest⟩

theorem total_members (levels : Nat) (members : List (Utf16 × Json FiniteNumber)) :
    let total := Cost.total (members.map (costOfMember levels))
    (total.admitted ↔ depthMembers members < levels + 1 ∧
      Json.ArraysWithinMembers MAX_COLLECTION_ITEMS members) ∧
    total.nodes = nodesMembers members ∧ total.bytes = (members.map (memberSize printed)).sum := by
  induction members with
  | nil => simp [Cost.total, depthMembers, Json.ArraysWithinMembers, nodesMembers]
  | cons member members ih =>
    obtain ⟨admitted, nodes, bytes⟩ := ih
    simp only [Cost.total, map_cons, foldr_cons, Cost.andThen, costOfMember, depthMembers,
      Json.ArraysWithinMembers, nodesMembers, sum_cons] at *
    refine ⟨?_, by omega, by omega⟩
    rw [admitted]
    constructor
    · rintro ⟨⟨shallow, narrow⟩, deep, rest⟩
      exact ⟨by omega, narrow, rest⟩
    · rintro ⟨deep, narrow, rest⟩
      exact ⟨⟨by omega, narrow⟩, by omega, rest⟩

/-- The members of a record one by one. -/
theorem members_paired {members : List (Option Utf16 × Value A)} {values : List (Utf16 × Json FiniteNumber)}
    (keys : members.map Prod.fst = values.map fun member => some member.1)
    (inside : List.Forall₂ (Denotes heap) (members.map Prod.snd) (values.map Prod.snd)) :
    List.Forall₂ (fun member value => member.1 = some value.1 ∧ Denotes heap member.2 value.2)
      members values := by
  induction members generalizing values with
  | nil =>
    cases values with
    | nil => exact .nil
    | cons => cases keys
  | cons member members ih =>
    cases values with
    | nil => cases keys
    | cons value values =>
      simp only [map_cons, List.cons.injEq] at keys
      cases inside with
      | cons here later => exact .cons ⟨keys.1, here⟩ (ih keys.2 later)

theorem forall₂_mem {B C : Type} {relation : B → C → Prop} {front : List B} {back : List C}
    (paired : List.Forall₂ relation front back) {b : B} (member : b ∈ front) :
    ∃ c ∈ back, relation b c := by
  induction paired with
  | nil => cases member
  | cons here _ ih =>
    rcases mem_cons.1 member with rfl | later
    · exact ⟨_, mem_cons_self, here⟩
    · obtain ⟨c, inside, related⟩ := ih later
      exact ⟨c, mem_cons_of_mem _ inside, related⟩

theorem depth_items {value : Json FiniteNumber} {values : List (Json FiniteNumber)} (member : value ∈ values) :
    value.depth < Json.depthItems values := by
  induction values with
  | nil => cases member
  | cons first rest ih =>
    rw [depthItems]
    rcases mem_cons.1 member with rfl | later
    · omega
    · have := ih later
      omega

theorem depth_members {value : Json FiniteNumber} {members : List (Utf16 × Json FiniteNumber)}
    (member : value ∈ members.map Prod.snd) : value.depth < Json.depthMembers members := by
  induction members with
  | nil => cases member
  | cons first rest ih =>
    rw [depthMembers]
    rcases mem_cons.1 member with rfl | later
    · omega
    · have := ih later
      omega

variable {json : Json FiniteNumber}

theorem held_denotes {address : A} (denotes : Denotes heap (.object address) json)
    {value : Value A} (member : value ∈ held (heap address)) :
    ∃ part, Denotes heap value part ∧ part.depth < json.depth := by
  cases denotes with
  | array here inside =>
    rw [here] at member
    obtain ⟨part, there, denotes⟩ := forall₂_mem inside member
    exact ⟨part, denotes, by rw [depth]; exact depth_items there⟩
  | record here keys inside =>
    rw [here] at member
    obtain ⟨part, there, denotes⟩ := forall₂_mem inside member
    exact ⟨part, denotes, by rw [depth]; exact depth_members there⟩

/-- A JSON value is not cyclic: what it holds is less deep. -/
theorem denotes_founded {depth : Nat} {address : A}
    (denotes : Denotes heap (.object address) json) (bound : json.depth ≤ depth) : Founded heap address := by
  induction depth generalizing address json with
  | zero =>
    refine Acc.intro address fun inner holds => ?_
    obtain ⟨part, _, less⟩ := held_denotes denotes holds
    omega
  | succ depth ih =>
    refine Acc.intro address fun inner holds => ?_
    obtain ⟨part, there, less⟩ := held_denotes denotes holds
    exact ih there (by omega)

variable [DecidableEq A]

/-- The charge of every value of a list, from that of each. -/
theorem charges_items {seen : List A} {items : List (Value A)}
    {values : List (Json FiniteNumber)} (inside : List.Forall₂ (Denotes heap) items values)
    (each : ∀ item ∈ items, ∀ value, Denotes heap item value →
      Charges seen (visit heap levels item) (costOf levels value)) :
    Charges seen (inTurn (visit heap levels) items) (Cost.total (values.map (costOf levels))) := by
  apply charges_inTurn
  induction inside with
  | nil => exact .nil
  | cons here _ ih =>
    refine .cons (each _ mem_cons_self _ here) (ih fun item member => ?_)
    exact each item (mem_cons_of_mem _ member)

theorem charges_member {seen : List A} {member : Option Utf16 × Value A}
    {value : Utf16 × Json FiniteNumber} (key : member.1 = some value.1)
    (charges : Charges seen (visit heap levels member.2) (costOf levels value.2)) :
    Charges seen (visitMember (visit heap levels) member) (costOfMember levels value) := by
  have both := (charges_string seen value.1 1).andThen charges
  have same : visitMember (visit heap levels) member =
      fun m => (add (jsonStringBytes value.1 + 1) m).bind (visit heap levels member.2) := by
    funext m
    rw [visitMember, key]
  rw [same]
  exact both.congr (by simp [Cost.andThen, costOf, costOfMember]) (Nat.zero_add _) rfl

theorem charges_members {seen : List A} {members : List (Option Utf16 × Value A)}
    {values : List (Utf16 × Json FiniteNumber)}
    (inside : List.Forall₂ (fun member value => member.1 = some value.1 ∧ Denotes heap member.2 value.2)
      members values)
    (each : ∀ item ∈ members.map Prod.snd, ∀ value, Denotes heap item value →
      Charges seen (visit heap levels item) (costOf levels value)) :
    Charges seen (inTurn (visitMember (visit heap levels)) members)
      (Cost.total (values.map (costOfMember levels))) := by
  apply charges_inTurn
  induction inside with
  | nil => exact .nil
  | cons here _ ih =>
    refine .cons (charges_member here.1 (each _ mem_cons_self _ here.2)) (ih fun item member => ?_)
    exact each item (mem_cons_of_mem _ member)

/-- What stands inside an object costs what the object does, but for its own node. -/
theorem charges_held {seen : List A} {address : A} (denotes : Denotes heap (.object address) json)
    (each : ∀ item ∈ held (heap address), ∀ value, Denotes heap item value →
      Charges seen (visit heap levels item) (costOf levels value)) :
    Charges seen (visitObject (visit heap levels) (heap address))
      ⟨(costOf (levels + 1) json).admitted, json.nodes - 1, json.size printed⟩ := by
  cases denotes with
  | @array _ items values here inside =>
    rw [here] at each ⊢
    have count := inside.length_eq
    obtain ⟨admitted, nodes, bytes⟩ := total_items levels values
    have both := (charges_add seen (2 + (items.length - 1))).andThen (charges_items inside each)
    by_cases long : items.length > MAX_COLLECTION_ITEMS
    · intro m _ _ _
      rw [visitObject, if_pos long]
      refine .inr ⟨fun fits => ?_, _, rfl⟩
      have narrow := fits.1.2
      rw [Json.ArraysWithin] at narrow
      omega
    · have same : visitObject (visit heap levels) (.array items) =
          fun m => (add (2 + (items.length - 1)) m).bind (inTurn (visit heap levels) items) := by
        funext m
        rw [visitObject, if_neg long]
      rw [same]
      refine both.congr ?_ ?_ ?_
      · simp only [Cost.andThen, costOf, Json.depth, Json.ArraysWithin, true_and, admitted]
        rw [and_iff_right (show values.length ≤ MAX_COLLECTION_ITEMS by omega)]
      · simp only [Cost.andThen, Json.nodes, nodes]
        omega
      · simp only [Cost.andThen, size_array, bytes, count]
  | @record _ members values here keys inside =>
    rw [here] at each ⊢
    have paired := members_paired keys inside
    obtain ⟨admitted, nodes, bytes⟩ := total_members levels values
    refine ((charges_add seen (2 + (members.length - 1))).andThen (charges_members paired each)).congr ?_ ?_ ?_
    · simp only [Cost.andThen, costOf, Json.depth, Json.ArraysWithin, true_and, admitted]
    · simp only [Cost.andThen, Json.nodes, nodes]
      omega
    · simp only [Cost.andThen, size_object, bytes, paired.length_eq]

theorem visit_charges {value : Value A}
    (denotes : Denotes heap value json) {seen : List A} (fresh : Fresh heap seen value) :
    Charges seen (visit heap levels value) (costOf levels json) := by
  induction levels generalizing value json seen with
  | zero =>
    intro m _ _ _
    exact .inr ⟨fun fits => Nat.not_lt_zero _ fits.1.1, _, rfl⟩
  | succ levels ih =>
    cases value with
    | null =>
      cases denotes
      exact (charges_node (charges_add seen 4)).congr (by simp [costOf, depth, Json.ArraysWithin]) rfl rfl
    | boolean value =>
      cases denotes
      refine (charges_node (charges_add seen (if value then 4 else 5))).congr
        (by simp [costOf, depth, Json.ArraysWithin]) rfl ?_
      cases value <;> rfl
    | string value =>
      cases denotes
      exact (charges_node (charges_string seen value 0)).congr
        (by simp [costOf, depth, Json.ArraysWithin]) rfl rfl
    | number value =>
      cases denotes
      refine (charges_node (charges_add seen value.text.length)).congr
        (by simp [costOf, depth, Json.ArraysWithin]) rfl ?_
      exact (utf8Size_ascii_text fun c member => utf8Size_number (value.numeric c member)).symm
    | nonFinite | other => cases denotes
    | object address =>
      have founded := denotes_founded denotes (le_refl _)
      have mine : address ∉ seen := fresh address ⟨address, rfl, .refl⟩
      have inside : Charges (address :: seen) (visitObject (visit heap levels) _) _ :=
        charges_held denotes fun item member value there => ih there (fresh.held founded member)
      refine (charges_node (charges_object mine inside)).congr Iff.rfl ?_ rfl
      have := json.nodes_pos
      simp only [costOf]
      omega

/-- Control JSON counts the bytes of its text when it is within the bounds, fails with a limit when the text
is too long, and fails in any case when it is cyclic. -/
theorem control_json_measured (heap : A → Object A) (value : Value A) (nodes : Nat) :
    (∀ json, Denotes heap value json →
      (Bounded nodes json → json.size printed ≤ MAX_SESSION_PROJECTION_BYTES →
        measureJson heap value nodes = .ok (json.size printed, nodes + json.nodes)) ∧
      (json.size printed > MAX_SESSION_PROJECTION_BYTES →
        ∃ message, measureJson heap value nodes = .error ⟨.resourceLimit, message⟩)) ∧
    (Cyclic heap value → ∃ error, measureJson heap value nodes = .error error) := by
  have empty : Fresh heap [] value := fun _ _ => not_mem_nil
  refine ⟨fun json denotes => ?_, fun ⟨inner, ⟨root, is, path⟩, cycle⟩ => ?_⟩
  · have charges : Charges [] (visit heap (MAX_JSON_DEPTH + 1) value) _ := visit_charges denotes empty
    refine ⟨fun ⟨shallow, narrow, few⟩ small => ?_, fun long => ?_⟩
    · rcases charges ⟨0, nodes, []⟩ rfl (by dsimp only; omega) (Nat.zero_le _) with
        ⟨_, done⟩ | ⟨unfit, _⟩
      · rw [measureJson, done]
        simp [Except.map, charged, costOf]
      · exact absurd ⟨⟨Nat.lt_succ_of_le shallow, narrow⟩, few, by simpa [costOf] using small⟩ unfit
    · by_cases spent : nodes ≤ MAX_JSON_NODES
      · rcases charges ⟨0, nodes, []⟩ rfl spent (Nat.zero_le _) with ⟨fits, _⟩ | ⟨_, message, failed⟩
        · have within := fits.2.2
          dsimp only [costOf] at within
          omega
        · exact ⟨message, by rw [measureJson, failed]; rfl⟩
      · exact ⟨_, by rw [measureJson, visit, if_pos (by dsimp only; omega)]; rfl⟩
  · cases measured : measureJson heap value nodes with
    | error error => exact ⟨error, rfl⟩
    | ok result =>
      cases visited : visit heap (MAX_JSON_DEPTH + 1) value ⟨0, nodes, []⟩ with
      | error error =>
        rw [measureJson, visited] at measured
        cases measured
      | ok after =>
        rw [is] at visited
        exact absurd cycle ((visit_founded visited).inside path).acyclic

/-- Two places share an object of one member, whose text is a lone surrogate. -/
def sharing : Nat → Object Nat
  | 0 => .array [.object 1, .object 1]
  | _ => .record true [(some [0x6B], .string [0xD800])]

theorem control_json_measured_shared : measureJson sharing (.object 0) 3 = .ok (31, 8) ∧
      ∃ error, measureJson (fun _ : Unit => .array [.object ()]) (.object ()) 3 = .error error := by
  have part : Denotes sharing (.object 1) (.object [([0x6B], .string [0xD800])]) :=
    .record rfl rfl (.cons (.string _) .nil)
  refine ⟨?_, (control_json_measured _ _ 3).2 ⟨(), ⟨(), rfl, .refl⟩, .single (mem_singleton.2 rfl)⟩⟩
  have measured := ((control_json_measured sharing (.object 0) 3).1 _
    (.array rfl (.cons part (.cons part .nil)))).1
  refine measured ⟨?_, ?_, ?_⟩ (by decide)
  all_goals simp [depth, depthItems, depthMembers, Json.ArraysWithin, Json.ArraysWithinItems,
    Json.ArraysWithinMembers, nodes, nodesItems, nodesMembers, MAX_JSON_DEPTH,
    MAX_COLLECTION_ITEMS, MAX_JSON_NODES]

end Sizes

end CodexHost.Guarantees.ControlJsonSize
