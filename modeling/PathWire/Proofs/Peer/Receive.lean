/-
What receiving a message comes to.

A message is either an announce, or it fails somewhere before its payload and changes nothing,
or it arrives: its tag is a bound id, every carrier on the path has a value, and the endpoint's
decoder is run on the rest.  `Arrival` keeps what was found on the way.
-/
import PathWire.Peer.Connection
import PathWire.Proofs.Peer.IdTables

namespace PathWire

variable {A : Application}

/-- The tag in front of a message. -/
def messageTag? (message : Bytes) : Option Nat :=
  match Reader.u32 (.ofBytes message) with
  | .ok tag _ => some tag.toNat
  | .error _ _ => none

namespace Connection

/-- A message that arrives at its endpoint's decoder. -/
structure Arrival (conn : Connection A) (env : A.Env) (message : Bytes) where
  tag : UInt32
  behindTag : Decoder
  path : ResolvedPath
  endpoint : EndpointDef A
  read : ReadKeys A
  payload : Decoder
  value : endpoint.type.El
  tagged : Reader.u32 (.ofBytes message) = .ok tag behindTag
  ordinary : tag.toNat ≠ announceTag
  bound : conn.ids.lookup tag.toNat = .ok path
  addressed : endpointOf conn.tree tag.toNat path = .ok endpoint
  carried : readKeys conn.tree env conn.attachment .unit path.keys behindTag = .ok read payload
  complete : read.absent = []
  typed : read.lowest.as endpoint.type = .ok value

namespace Arrival

variable {conn : Connection A} {env : A.Env} {message : Bytes}

/-- The context that the decoder sees. -/
def context (arrival : Arrival conn env message) : MessageContext A :=
  conn.readContext arrival.tag.toNat arrival.path arrival.read.values

/-- What the decoder does. -/
def decoded (arrival : Arrival conn env message) :
    EStateM.Result ProtocolError (Decoding A) Unit :=
  arrival.endpoint.decode env arrival.value arrival.context ⟨arrival.payload, conn.caches, []⟩

/-- What receiving comes to is up to the decoder. -/
theorem receive_eq (arrival : Arrival conn env message) :
    conn.receive env message = match arrival.decoded with
      | .error cause state => ⟨.error cause, { conn with caches := state.caches }, state.events⟩
      | .ok () state =>
        ⟨if state.decoder.remaining = 0
          then .ok (.dispatched arrival.tag.toNat arrival.path.dotted)
          else .error (.trailingBytes arrival.path.dotted state.decoder.remaining),
          { conn with caches := state.caches }, state.events⟩ := by
  unfold receive receiveOn dispatch
  simp only [arrival.tagged, if_neg arrival.ordinary, arrival.bound, arrival.addressed,
    arrival.carried, arrival.complete, List.isEmpty_nil, if_true, arrival.typed]
  rfl

/-- A message that arrives is refused if the decoder refuses it. -/
theorem receive_error (arrival : Arrival conn env message) {cause : ProtocolError}
    {state : Decoding A} (h : arrival.decoded = .error cause state) :
    conn.receive env message =
      ⟨.error cause, { conn with caches := state.caches }, state.events⟩ := by
  rw [arrival.receive_eq, h]

/-- Otherwise it is handled, unless bytes are left. -/
theorem receive_ok (arrival : Arrival conn env message) {state : Decoding A}
    (h : arrival.decoded = .ok () state) :
    conn.receive env message =
      ⟨if state.decoder.remaining = 0 then .ok (.dispatched arrival.tag.toNat arrival.path.dotted)
        else .error (.trailingBytes arrival.path.dotted state.decoder.remaining),
        { conn with caches := state.caches }, state.events⟩ := by
  rw [arrival.receive_eq, h]

end Arrival

/-- An announce changes nothing, or it is accepted and changes the incoming ids only. -/
theorem receiveAnnounce_cases (conn : Connection A) (dec : Decoder) :
    (conn.receiveAnnounce dec).conn = conn ∨ ∃ delivery incoming,
      (conn.receiveAnnounce dec).outcome = .ok delivery ∧
        (conn.receiveAnnounce dec).conn = { conn with ids := { conn.ids with incoming } } := by
  unfold receiveAnnounce
  cases hread : readAnnounce conn.tree.revision dec with
  | error cause dec => exact .inl rfl
  | ok announced dec =>
      obtain ⟨id, names⟩ := announced
      simp only
      cases hpath : ResolvedPath.ofNames conn.tree names with
      | error cause => exact .inl rfl
      | ok path =>
          simp only
          cases hregister : conn.ids.register id path with
          | error cause => exact .inl rfl
          | ok registered =>
              obtain ⟨found, ids⟩ := registered
              obtain ⟨incoming, rfl⟩ := IdTables.register_frame hregister
              exact .inr ⟨_, incoming, rfl, rfl⟩

theorem reportMissing_conn (conn : Connection A) (env : A.Env) (endpoint : EndpointDef A)
    (id : Nat) (path : ResolvedPath) (read : ReadKeys A) :
    (conn.reportMissing env endpoint id path read).conn = conn := by
  unfold reportMissing
  cases endpoint.onMissing <;> rfl

/-- **Every message is an announce, or changes nothing, or arrives.** -/
theorem receive_cases (conn : Connection A) (env : A.Env) (message : Bytes) :
    Nonempty (Arrival conn env message) ∨ (conn.receive env message).conn = conn ∨
      ∃ delivery incoming, (conn.receive env message).outcome = .ok delivery ∧
        messageTag? message = some announceTag ∧
        (conn.receive env message).conn = { conn with ids := { conn.ids with incoming } } := by
  unfold receive
  cases htag : Reader.u32 (.ofBytes message) with
  | error cause dec => exact .inr (.inl rfl)
  | ok tag dec =>
      by_cases hannounce : tag.toNat = announceTag
      · simp only [if_pos hannounce]
        have htagged : messageTag? message = some announceTag := by
          simp only [messageTag?, htag, hannounce]
        rcases conn.receiveAnnounce_cases dec with hsame | ⟨delivery, incoming, hok, hconn⟩
        · exact .inr (.inl hsame)
        · exact .inr (.inr ⟨delivery, incoming, hok, htagged, hconn⟩)
      simp only [if_neg hannounce]
      cases hbound : conn.ids.lookup tag.toNat with
      | error cause => exact .inr (.inl rfl)
      | ok path =>
          simp only [receiveOn]
          cases hendpoint : endpointOf conn.tree tag.toNat path with
          | error cause => exact .inr (.inl rfl)
          | ok endpoint =>
              simp only
              cases hread : readKeys conn.tree env conn.attachment .unit path.keys dec with
              | error cause dec => exact .inr (.inl rfl)
              | ok read payload =>
                  simp only
                  cases habsent : read.absent with
                  | cons index rest =>
                      exact .inr (.inl (reportMissing_conn conn env endpoint _ path read))
                  | nil =>
                      cases htyped : read.lowest.as endpoint.type with
                      | error cause =>
                          refine .inr (.inl ?_)
                          simp [dispatch, htyped, refused]
                      | ok value =>
                          exact .inl ⟨tag, dec, path, endpoint, read, payload, value, htag,
                            hannounce, hbound, hendpoint, hread, habsent, htyped⟩

/-- What an arrival leaves behind: other caches at most. -/
theorem Arrival.receive_frame {conn : Connection A} {env : A.Env} {message : Bytes}
    (arrival : Arrival conn env message) :
    ∃ caches, (conn.receive env message).conn = { conn with caches } := by
  cases hdecoded : arrival.decoded with
  | ok answer state => exact ⟨state.caches, by rw [arrival.receive_ok hdecoded]⟩
  | error cause state => exact ⟨state.caches, by rw [arrival.receive_error hdecoded]⟩

/-- Receiving touches neither the tree nor what this side sends. -/
theorem receive_frame (conn : Connection A) (env : A.Env) (message : Bytes) :
    ∃ incoming caches, (conn.receive env message).conn =
      { conn with ids := { conn.ids with incoming }, caches } := by
  rcases conn.receive_cases env message with ⟨⟨arrival⟩⟩ | hsame | ⟨_, incoming, -, -, hconn⟩
  · obtain ⟨caches, hconn⟩ := arrival.receive_frame
    exact ⟨conn.ids.incoming, caches, hconn⟩
  · exact ⟨conn.ids.incoming, conn.caches, hsame⟩
  · exact ⟨incoming, conn.caches, hconn⟩

/-- Only an announce changes the ids. -/
theorem receive_ids {conn : Connection A} {env : A.Env} {message : Bytes}
    (h : messageTag? message ≠ some announceTag) :
    (conn.receive env message).conn.ids = conn.ids := by
  rcases conn.receive_cases env message with ⟨⟨arrival⟩⟩ | hsame | ⟨_, incoming, -, htag, hconn⟩
  · obtain ⟨caches, hconn⟩ := arrival.receive_frame
    rw [hconn]
  · rw [hsame]
  · exact absurd htag h

/-- A message whose id is not found is refused. -/
theorem receive_unfound {conn : Connection A} {message : Bytes} {id : Nat}
    {cause : ProtocolError} (htag : messageTag? message = some id) (hordinary : id ≠ announceTag)
    (h : conn.ids.lookup id = .error cause) (env : A.Env) :
    conn.receive env message = conn.refused cause := by
  cases hread : Reader.u32 (.ofBytes message) with
  | error _ _ => simp [messageTag?, hread] at htag
  | ok tag dec =>
      obtain rfl : tag.toNat = id := by simpa [messageTag?, hread] using htag
      unfold receive
      simp only [hread, if_neg hordinary, h]

end Connection

end PathWire
