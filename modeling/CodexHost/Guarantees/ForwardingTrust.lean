import CodexHost.Source.WebServer.RequestTrust

/-!
# What forwarding headers can change

The answers read a forwarding header only through its last comma-separated value, and only for a trusted
proxy without a relay socket. So whatever else a client writes into these headers reaches no decision.
-/
namespace CodexHost.Guarantees.ForwardingTrust
open Foundation Foundation.HttpHeaders Option
open Source.WebServer.RequestTrust

/-- The headers in which the requests may differ. -/
def claimNames : List Text :=
  ["x-forwarded-for", "x-forwarded-proto", "x-forwarded-host"].map (·.toList)

/-- The last comma-separated value over all fields of a name. -/
def lastValue (request : IncomingMessage) (name : Text) : Option Text :=
  (valuesOf request.fields name).getLast?.map fun value => trim (lastPart value)

/-- Equal sockets, and the same fields apart from the forwarding claims. -/
structure SameApart (request other : IncomingMessage) : Prop where
  socket : request.socket = other.socket
  fields : request.fields.filter (fun field => !claimNames.contains (lowerName field.1)) =
    other.fields.filter fun field => !claimNames.contains (lowerName field.1)

/-- A forwarding header is read through its last value, and an empty one is none. -/
theorem lastHeaderValue_eq (request : IncomingMessage) {name : Text} (joined : Joined name) :
    lastHeaderValue (request.headers.get? name) =
      if lastValue request name = some [] then none else lastValue request name := by
  have value : ((request.headers.get? name).map joinedText).map (fun text => trim (lastPart text)) =
      lastValue request name := by
    rw [IncomingMessage.headers, get?_headersOf joined, lastValue]
    cases valuesOf request.fields name with
    | nil => rfl
    | cons first values =>
      rw [map_some, map_some, joinedText, trim_lastPart_fold, List.getLast?_cons, map_some]
  rw [lastHeaderValue, value]

theorem SameApart.values {request other : IncomingMessage} (same : SameApart request other) {name : Text}
    (free : claimNames.contains name = false) :
    valuesOf request.fields name = valuesOf other.fields name := by
  have part (fields : List (Text × Text)) : (fields.filter fun field => lowerName field.1 = name) =
      (fields.filter fun field => !claimNames.contains (lowerName field.1)).filter
        fun field => lowerName field.1 = name := by
    rw [List.filter_filter]
    apply List.filter_congr
    intro field _
    by_cases is : lowerName field.1 = name
    · rw [is, free]
      simp
    · simp [is]
  rw [valuesOf, valuesOf, part, part other.fields, same.fields]

theorem SameApart.header {request other : IncomingMessage} (same : SameApart request other) {name : String}
    (free : claimNames.contains name.toList = false) : request.header name = other.header name := by
  rw [IncomingMessage.header, IncomingMessage.header, IncomingMessage.headers, IncomingMessage.headers,
    get?_headersOf_congr (same.values free)]

section Decisions
variable (platform : Platform) (trust : RequestTrust) {request other : IncomingMessage}

section
variable (same : SameApart request other)
include same

theorem SameApart.fromTrustedProxy :
    trust.fromTrustedProxy platform request = trust.fromTrustedProxy platform other := by
  rw [RequestTrust.fromTrustedProxy, RequestTrust.fromTrustedProxy, same.socket]

theorem SameApart.relay : trust.relay request = trust.relay other := by
  rw [RequestTrust.relay, RequestTrust.relay, same.socket]

/-- What is read of a forwarding header, when the peer is no trusted proxy or the last values agree. -/
theorem SameApart.forwarded {name : String} (joined : Joined name.toList)
    (agree : trust.fromTrustedProxy platform request = false ∨
      lastValue request name.toList = lastValue other name.toList) :
    trust.forwarded platform request name = trust.forwarded platform other name := by
  rw [RequestTrust.forwarded, RequestTrust.forwarded, ← same.fromTrustedProxy platform trust]
  rcases agree with untrusted | equal
  · rw [untrusted]
    rfl
  · rw [lastHeaderValue_eq request joined, lastHeaderValue_eq other joined, equal]

/-- The three decisions on a relay socket do not read forwarding headers. -/
theorem relay_decisions {relay : RelaySocket}
    (bound : trust.relay request = some relay) :
    trust.clientAddress platform request = trust.clientAddress platform other ∧
      trust.secure platform request = trust.secure platform other ∧
      trust.sameOrigin platform request = trust.sameOrigin platform other := by
  have bound' := (same.relay trust).symm.trans bound
  refine ⟨?_, ?_, ?_⟩
  · rw [RequestTrust.clientAddress, RequestTrust.clientAddress, bound, bound']
  · rw [RequestTrust.secure, RequestTrust.secure, bound, bound']
    rfl
  · rw [RequestTrust.sameOrigin, RequestTrust.sameOrigin, same.header (by decide), bound, bound']

theorem forwarded_decisions
    (agree : trust.fromTrustedProxy platform request = false ∨
      ∀ name ∈ claimNames, lastValue request name = lastValue other name) :
    trust.clientAddress platform request = trust.clientAddress platform other ∧
      trust.secure platform request = trust.secure platform other ∧
      trust.sameOrigin platform request = trust.sameOrigin platform other := by
  have claim (name : String) (is : name.toList ∈ claimNames) (joined : Joined name.toList) :
      trust.forwarded platform request name = trust.forwarded platform other name :=
    same.forwarded platform trust joined (agree.imp_right fun equal => equal _ is)
  refine ⟨?_, ?_, ?_⟩
  · rw [RequestTrust.clientAddress, RequestTrust.clientAddress, same.relay trust, same.socket,
      claim "x-forwarded-for" (by decide) (by decide)]
  · have proto := claim "x-forwarded-proto" (by decide) (by decide)
    rw [RequestTrust.forwarded, RequestTrust.forwarded, ← same.fromTrustedProxy platform trust] at proto
    rw [RequestTrust.secure, RequestTrust.secure, same.relay trust, ← same.fromTrustedProxy platform trust]
    cases trusted : trust.fromTrustedProxy platform request with
    | false => rfl
    | true =>
      rw [trusted, if_pos rfl, if_pos rfl] at proto
      rw [proto]
  · have host : request.header "host" = other.header "host" := same.header (by decide)
    have origin : request.header "origin" = other.header "origin" := same.header (by decide)
    rw [RequestTrust.sameOrigin, RequestTrust.sameOrigin, same.relay trust, origin, host,
      claim "x-forwarded-host" (by decide) (by decide)]

end

theorem not_local {field : Text × Text} (has : field ∈ request.fields)
    (forwarding : isForwarding (lowerName field.1) = true) :
    isLocalConnection platform request = false := by
  have key : lowerName field.1 ∈ request.headers.keys := by
    rw [OrderedMap.mem_keys_iff, ← OrderedMap.has_iff, IncomingMessage.headers, has_headersOf]
    exact ⟨field, has, rfl⟩
  have any : request.headers.keys.any isForwarding = true :=
    List.any_eq_true.2 ⟨_, key, forwarding⟩
  rw [isLocalConnection, any]
  split <;> rfl

end Decisions

/-- No part of the forwarding headers that a client chooses reaches a decision. -/
theorem forwarding_trusted (platform : Platform) (trust : RequestTrust) :
    (∀ request other, SameApart request other →
      (trust.fromTrustedProxy platform request = false ∨ (trust.relay request).isSome = true ∨
        ∀ name ∈ claimNames, lastValue request name = lastValue other name) →
      trust.clientAddress platform request = trust.clientAddress platform other ∧
        trust.secure platform request = trust.secure platform other ∧
        trust.sameOrigin platform request = trust.sameOrigin platform other) ∧
    ∀ request, ∀ field ∈ request.fields, isForwarding (lowerName field.1) = true →
      isLocalConnection platform request = false := by
  refine ⟨fun request other same agree => ?_, fun request field has => not_local platform has⟩
  rcases agree with untrusted | bound | equal
  · exact forwarded_decisions platform trust same (.inl untrusted)
  · obtain ⟨relay, is⟩ := isSome_iff_exists.1 bound
    exact relay_decisions platform trust same is
  · exact forwarded_decisions platform trust same (.inr equal)

end CodexHost.Guarantees.ForwardingTrust
