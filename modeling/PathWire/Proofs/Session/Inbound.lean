/-
What becomes of a received frame, and how it is counted.

The first four bytes of a frame say what it is.  The messages of a container are handed to the
connection one after the other, and one that is refused neither stops the others nor is counted
twice: after each of them the counters have grown by what the report holds, and nothing else of the
session but its connection has changed (`Receiving.Tallies`).  A container is not looked for inside
a container, nor an advertisement, for their tags are ids that no path has.
-/
import PathWire.Proofs.Frame.Parsing
import PathWire.Proofs.Peer.Refusal
import PathWire.Proofs.Session.Hearing

namespace PathWire

open Varint (Spells)

variable {A : Application} {T : Type}

/-! ### What a frame is -/

/-- Bytes that start with a tag. -/
def Tagged (tag : Nat) (frame : Bytes) : Prop := ∃ rest, frame = Bytes.bigEndian 4 tag ++ rest

/-- A frame that advertises a cap. -/
def Advertises (frame : Bytes) (cap : UInt32) : Prop :=
  ∃ field, frame = Bytes.bigEndian 4 bandwidthTag ++ field ∧ Spells field cap.toNat

namespace Session

variable {frame : Bytes} {tag : Nat}

theorem frameTag?_eq_some (htag : tag < 2 ^ 32) :
    frameTag? frame = some tag ↔ Tagged tag frame := by
  constructor
  · intro h
    unfold frameTag? at h
    by_cases hroom : tagBytes ≤ frame.length
    · rw [if_pos hroom, Option.some.injEq] at h
      have hlength : (frame.take tagBytes).length = 4 := List.length_take_of_le hroom
      have hfield := Bytes.bigEndian_toNat (frame.take tagBytes)
      rw [hlength, h] at hfield
      refine ⟨frame.drop tagBytes, ?_⟩
      rw [hfield, List.take_append_drop]
    · rw [if_neg hroom] at h
      cases h
  · rintro ⟨rest, rfl⟩
    exact frameTag?_bytes htag rest

/-- A message that starts with a tag is a message on the path of this id. -/
theorem messageTag?_of_tagged (htag : tag < 2 ^ 32) (h : Tagged tag frame) :
    messageTag? frame = some tag := by
  obtain ⟨rest, rfl⟩ := h
  have hfield : (UInt32.ofNat tag).toNat = tag := UInt32.toNat_ofNat_of_lt' htag
  have hread := Reader.u32_bytes (UInt32.ofNat tag) rest
  rw [hfield] at hread
  simp only [messageTag?, hread, hfield]

end Session

theorem Contains.tagged {frame : Bytes} {messages : List Bytes} (h : Contains frame messages) :
    Tagged batchTag frame := by
  obtain ⟨field, entries, hframe, -⟩ := h
  exact ⟨field ++ entries, hframe⟩

theorem Advertises.tagged {frame : Bytes} {cap : UInt32} (h : Advertises frame cap) :
    Tagged bandwidthTag frame := by
  obtain ⟨field, hframe, -⟩ := h
  exact ⟨field, hframe⟩

/-- **A cap is read from exactly the frames that advertise it.** -/
theorem decodeAdvert_eq_ok {frame : Bytes} {cap : UInt32} :
    decodeAdvert frame = .ok cap ↔ Advertises frame cap := by
  constructor
  · intro h
    unfold decodeAdvert FrameReader.run at h
    cases hread : FrameReader.advert (.ofBytes frame) with
    | error cause after => simp [hread] at h
    | ok found after =>
        simp only [hread, Except.ok.injEq] at h
        subst h
        obtain ⟨⟨⟩, behindTag, htag, hread⟩ := Step.of_bind_ok hread
        obtain ⟨taken, rest, rfl, rfl, rfl⟩ :=
          (FrameReader.parses_expectTag (by decide)).of_ok htag
        obtain ⟨value, behindCap, hcap, hread⟩ := Step.of_bind_ok hread
        obtain ⟨field, left, rfl, hfield, rfl⟩ := FrameReader.parses_varU32.of_ok hcap
        obtain ⟨⟨⟩, final, hfinish, hreturn⟩ := Step.of_bind_ok hread
        cases hreturn
        obtain ⟨hleft, -⟩ := FrameReader.finish_ok hfinish
        obtain rfl : left = [] := hleft
        rw [List.append_nil]
        exact ⟨field, rfl, hfield⟩
  · rintro ⟨field, rfl, hfield⟩
    have hcap := FrameReader.parses_varU32.ok hfield []
    rw [List.append_nil] at hcap
    have hadvert : FrameReader.advert (.ofBytes (Bytes.bigEndian 4 bandwidthTag ++ field))
        = .ok cap (.ofBytes []) := by
      unfold FrameReader.advert
      rw [Step.bind_ok (FrameReader.expectTag_bytes (by decide) _), Step.bind_ok hcap,
        Step.bind_ok FrameReader.finish_nil]
      rfl
    exact FrameReader.run_ok hadvert

/-! ### One outcome for each message -/

namespace Heard

/-- Every outcome is a delivery or an error. -/
theorem length_outcomes (heard : Heard A) :
    heard.deliveries.length + heard.errors.length = heard.outcomes.length := by
  unfold deliveries errors
  induction heard.outcomes with
  | nil => rfl
  | cons outcome rest ih =>
      cases outcome <;> simp [Except.toOption] at ih ⊢ <;> omega

end Heard

namespace Connection

theorem length_hear (messages : List (Incoming A)) : ∀ conn : Connection A,
    (conn.hear messages).outcomes.length = messages.length := by
  induction messages with
  | nil => exact fun conn => rfl
  | cons message rest ih =>
      intro conn
      have hrest := ih (conn.receive message.1 message.2).conn
      simp only [hear, Heard.andThen, List.length_append, List.length_cons, List.length_nil, hrest]
      omega

/-- The outcome of a message is what the connection makes of it after the messages before it. -/
theorem outcomes_hear (messages : List (Incoming A)) : ∀ (conn : Connection A) (place : Nat)
    (env : A.Env) (message : Bytes), messages[place]? = some (env, message) →
      (conn.hear messages).outcomes[place]?
        = some ((conn.hear (messages.take place)).conn.receive env message).outcome := by
  induction messages with
  | nil => exact fun _ _ _ _ => nofun
  | cons first rest ih =>
      intro conn place env message h
      cases place with
      | zero =>
          obtain rfl : first = (env, message) := Option.some.inj h
          rfl
      | succ place =>
          have hrest := ih (conn.receive first.1 first.2).conn place env message h
          simpa [hear, Heard.andThen] using hrest

/-- What a connection makes of the messages of one frame. -/
def hearAll (conn : Connection A) (env : A.Env) (messages : List Bytes) : Heard A :=
  conn.hear (messages.map fun message => (env, message))

theorem outcomes_hearAll (conn : Connection A) (env : A.Env) {messages : List Bytes} {place : Nat}
    {message : Bytes} (h : messages[place]? = some message) :
    (conn.hearAll env messages).outcomes[place]?
      = some ((conn.hearAll env (messages.take place)).conn.receive env message).outcome := by
  unfold hearAll
  rw [List.map_take]
  exact outcomes_hear _ conn place env message (by rw [List.getElem?_map, h]; rfl)

/-- No path has the tag of a container or of an advertisement as its id. -/
theorem receive_reserved {tag : Nat} (hordinary : tag ≠ announceTag)
    (hreserved : tag < firstAllocatedId) {message : Bytes} (h : Tagged tag message)
    (conn : Connection A) (env : A.Env) :
    conn.receive env message = conn.refused (.reservedId tag) := by
  have hsmall : tag < 2 ^ 32 := Nat.lt_trans hreserved (by decide)
  have hlookup : conn.ids.lookup tag = .error (.reservedId tag) := by
    have hcheck : conn.ids.checkId tag = .error (.reservedId tag) := if_pos hreserved
    unfold IdTables.lookup
    rw [hcheck]
    rfl
  exact receive_unfound (Session.messageTag?_of_tagged hsmall h) hordinary hlookup env

end Connection

/-! ### What is counted -/

namespace Delivery

def isRegistered : Delivery → Bool
  | .registered .. => true
  | _ => false

def isDispatched : Delivery → Bool
  | .dispatched .. => true
  | _ => false

def isMissing : Delivery → Bool
  | .missingKeys .. => true
  | _ => false

end Delivery

namespace SessionStats

/-- The counters after everything in a report was counted. -/
def tally (stats : SessionStats) (report : ReceiveReport) : SessionStats :=
  { stats with
    pathsRegistered := stats.pathsRegistered + report.deliveries.countP (·.isRegistered)
    messagesDelivered := stats.messagesDelivered + report.deliveries.countP (·.isDispatched)
    messagesMissing := stats.messagesMissing + report.deliveries.countP (·.isMissing)
    messagesDropped := stats.messagesDropped + report.errors.length }

/-- The counters with one frame more received. -/
def oneFrame (stats : SessionStats) : SessionStats :=
  { stats with framesReceived := stats.framesReceived + 1 }

variable (stats : SessionStats) (report : ReceiveReport)

theorem tally_delivery (delivery : Delivery) : Session.countDelivery delivery (stats.tally report)
    = stats.tally { report with deliveries := report.deliveries ++ [delivery] } := by
  cases delivery <;>
    simp [Session.countDelivery, tally, List.countP_append, Delivery.isRegistered,
      Delivery.isDispatched, Delivery.isMissing, Nat.add_assoc]

theorem tally_error (cause : SessionError) :
    { stats.tally report with messagesDropped := (stats.tally report).messagesDropped + 1 }
      = stats.tally { report with errors := report.errors ++ [cause] } := by
  simp [tally, Nat.add_assoc]

end SessionStats

namespace Session

variable {start : Session A T} {state : Receiving A T}

/-- Nothing of a session has changed but its connection and its counters, and these have grown by
what the report holds. -/
def Receiving.Tallies (start : Session A T) (state : Receiving A T) : Prop :=
  ∃ conn, state.session = { start with conn, stats := start.stats.tally state.report }

theorem Receiving.Tallies.drop (h : state.Tallies start) (cause : SessionError) :
    (state.drop cause).Tallies start := by
  obtain ⟨conn, h⟩ := h
  refine ⟨conn, ?_⟩
  unfold Receiving.drop
  simp only [h, Session.count, ← SessionStats.tally_error]

/-- One message is counted once, whatever comes of it. -/
theorem Receiving.Tallies.dispatch (h : state.Tallies start) (env : A.Env) (message : Bytes) :
    (state.dispatch env message).Tallies start := by
  obtain ⟨conn, h⟩ := h
  unfold Receiving.dispatch
  simp only [h]
  cases houtcome : (conn.receive env message).outcome with
  | ok delivery =>
      refine ⟨(conn.receive env message).conn, ?_⟩
      simp only [Session.count, SessionStats.tally_delivery]
  | error cause =>
      exact drop ⟨(conn.receive env message).conn, rfl⟩ (.protocol cause)

/-- And so are any number of messages. -/
theorem Receiving.Tallies.dispatchAll (h : state.Tallies start) (env : A.Env)
    (messages : List Bytes) : (messages.foldl (Receiving.dispatch env) state).Tallies start :=
  messages.foldlRecOn (Receiving.dispatch env) h fun _ h message _ => h.dispatch env message

/-! ### Frames -/

/-- The session handed some messages to its connection, one after the other, and but for what it
counts it did nothing else.  There is one outcome for each message, in their order. -/
structure HandsOn (session : Session A T) (env : A.Env) (messages : List Bytes)
    (received : Receiving A T) : Prop where
  untouched : ∃ stats, received.session
    = { session with conn := (session.conn.hearAll env messages).conn, stats }
  tells : received.Tells (session.conn.hearAll env messages)
  whole : received.report.deliveries.length + received.report.errors.length = messages.length
  each : ∀ (place : Nat) message, messages[place]? = some message →
    (session.conn.hearAll env messages).outcomes[place]? = some
      ((session.conn.hearAll env (messages.take place)).conn.receive env message).outcome
  reserved : ∀ (place : Nat) message tag, messages[place]? = some message →
    Tagged tag message → tag = batchTag ∨ tag = bandwidthTag →
      (session.conn.hearAll env messages).outcomes[place]?
        = some (.error (.reservedId tag))

/-- A received frame before anything came of it. -/
def opened (session : Session A T) : Receiving A T :=
  ⟨session.count SessionStats.oneFrame, {}, []⟩

theorem opened_tallies (session : Session A T) :
    session.opened.Tallies (session.count SessionStats.oneFrame) := ⟨session.conn, rfl⟩

theorem handsOn (session : Session A T) (env : A.Env) (messages : List Bytes) :
    session.HandsOn env messages (messages.foldl (Receiving.dispatch env) session.opened) := by
  have hopened : session.opened.Tells ⟨session.conn, [], []⟩ := ⟨rfl, rfl, rfl, rfl⟩
  have htells : (messages.foldl (Receiving.dispatch env) session.opened).Tells
      (session.conn.hearAll env messages) := hopened.dispatchAll env messages
  obtain ⟨conn, hsession⟩ := session.opened_tallies.dispatchAll env messages
  constructor
  · obtain rfl : conn = (session.conn.hearAll env messages).conn := by
      rw [← htells.conn, hsession]
    exact ⟨_, hsession⟩
  · exact htells
  · rw [htells.deliveries, htells.errors, Heard.length_outcomes, Connection.hearAll,
      Connection.length_hear, List.length_map]
  · exact fun place message h => session.conn.outcomes_hearAll env h
  · intro place message tag h htagged hreserved
    have hordinary : tag ≠ announceTag := by rcases hreserved with rfl | rfl <;> decide
    have hsmall : tag < firstAllocatedId := by rcases hreserved with rfl | rfl <;> decide
    rw [session.conn.outcomes_hearAll env h,
      Connection.receive_reserved hordinary hsmall htagged]
    rfl

/-- What a session makes of one frame. -/
structure Accounts (session : Session A T) (env : A.Env) (frame : Bytes) : Prop where
  counted : (session.receive env frame).session.stats
    = session.stats.oneFrame.tally (session.receive env frame).report
  container : ∀ messages, Contains frame messages →
    session.HandsOn env messages (session.receive env frame)
  advert : ∀ cap, Advertises frame cap → session.receive env frame
    = ⟨{ session with
          bandwidth := { session.bandwidth with peer := some cap }
          stats := session.stats.oneFrame }, {}, []⟩
  malformed : Tagged batchTag frame ∧ (∀ messages, ¬ Contains frame messages) ∨
      Tagged bandwidthTag frame ∧ (∀ cap, ¬ Advertises frame cap) →
    ∃ cause stats, session.receive env frame
      = ⟨{ session with stats }, ⟨[], [cause]⟩, []⟩
  message : ¬ Tagged batchTag frame → ¬ Tagged bandwidthTag frame →
    session.HandsOn env [frame] (session.receive env frame)

section Frames

variable (session : Session A T) (env : A.Env) {frame : Bytes}

theorem receive_container {messages : List Bytes} (h : Contains frame messages) :
    session.receive env frame = messages.foldl (Receiving.dispatch env) session.opened := by
  have htag : frameTag? frame = some batchTag := (frameTag?_eq_some (by decide)).mpr h.tagged
  unfold receive
  simp only [if_pos htag, splitBatch_eq_ok.mpr h]
  rfl

theorem receive_badContainer (htagged : Tagged batchTag frame)
    (h : ∀ messages, ¬ Contains frame messages) :
    ∃ cause, session.receive env frame = session.opened.drop cause := by
  have htag : frameTag? frame = some batchTag := (frameTag?_eq_some (by decide)).mpr htagged
  obtain ⟨cause, hsplit⟩ := splitBatch_eq_error h
  refine ⟨cause, ?_⟩
  unfold receive
  simp only [if_pos htag, hsplit]
  rfl

/-- An advertisement is no container. -/
theorem frameTag?_advert (htagged : Tagged bandwidthTag frame) :
    frameTag? frame = some bandwidthTag ∧ frameTag? frame ≠ some batchTag := by
  have htag : frameTag? frame = some bandwidthTag := (frameTag?_eq_some (by decide)).mpr htagged
  refine ⟨htag, ?_⟩
  rw [htag]
  decide

theorem receive_advert {cap : UInt32} (h : Advertises frame cap) :
    session.receive env frame
      = ⟨{ session with
            bandwidth := { session.bandwidth with peer := some cap }
            stats := session.stats.oneFrame }, {}, []⟩ := by
  obtain ⟨htag, hother⟩ := frameTag?_advert h.tagged
  unfold receive
  simp only [if_neg hother, if_pos htag, decodeAdvert_eq_ok.mpr h]
  rfl

theorem receive_badAdvert (htagged : Tagged bandwidthTag frame)
    (h : ∀ cap, ¬ Advertises frame cap) :
    ∃ cause, session.receive env frame = session.opened.drop cause := by
  obtain ⟨htag, hother⟩ := frameTag?_advert htagged
  cases hcap : decodeAdvert frame with
  | ok cap => exact absurd (decodeAdvert_eq_ok.mp hcap) (h cap)
  | error cause =>
      refine ⟨cause, ?_⟩
      unfold receive
      simp only [if_neg hother, if_pos htag, hcap]
      rfl

theorem receive_message (hbatch : ¬ Tagged batchTag frame)
    (hadvert : ¬ Tagged bandwidthTag frame) :
    session.receive env frame = [frame].foldl (Receiving.dispatch env) session.opened := by
  rw [← frameTag?_eq_some (by decide)] at hbatch hadvert
  unfold receive
  rw [if_neg hbatch, if_neg hadvert]
  rfl

/-- Whatever a frame is, what the counters have grown by is what was reported of it. -/
theorem receive_counted : (session.receive env frame).session.stats
    = session.stats.oneFrame.tally (session.receive env frame).report := by
  have hmessages : ∀ messages : List Bytes,
      (messages.foldl (Receiving.dispatch env) session.opened).session.stats
        = session.stats.oneFrame.tally
          (messages.foldl (Receiving.dispatch env) session.opened).report := by
    intro messages
    obtain ⟨conn, hsession⟩ := session.opened_tallies.dispatchAll env messages
    rw [hsession]
    rfl
  by_cases hbatch : Tagged batchTag frame
  · by_cases h : ∃ messages, Contains frame messages
    · obtain ⟨messages, h⟩ := h
      rw [session.receive_container env h]
      exact hmessages messages
    · obtain ⟨cause, hdrop⟩ := session.receive_badContainer env hbatch (not_exists.mp h)
      rw [hdrop]
      rfl
  by_cases hadvert : Tagged bandwidthTag frame
  · by_cases h : ∃ cap, Advertises frame cap
    · obtain ⟨cap, h⟩ := h
      rw [session.receive_advert env h]
      rfl
    · obtain ⟨cause, hdrop⟩ := session.receive_badAdvert env hadvert (not_exists.mp h)
      rw [hdrop]
      rfl
  · rw [session.receive_message env hbatch hadvert]
    exact hmessages [frame]

end Frames

/-- **Every frame is accounted for**, in every state of a session: it is counted as received, and
the messages in it, or the frame itself if it is malformed, are counted by what became of them. -/
theorem receive_accounts (session : Session A T) (env : A.Env) (frame : Bytes) :
    session.Accounts env frame := by
  constructor
  · exact session.receive_counted env
  · intro messages h
    rw [session.receive_container env h]
    exact session.handsOn env messages
  · exact fun cap h => session.receive_advert env h
  · rintro (⟨htagged, h⟩ | ⟨htagged, h⟩)
    · obtain ⟨cause, hdrop⟩ := session.receive_badContainer env htagged h
      exact ⟨cause, _, hdrop⟩
    · obtain ⟨cause, hdrop⟩ := session.receive_badAdvert env htagged h
      exact ⟨cause, _, hdrop⟩
  · intro hbatch hadvert
    rw [session.receive_message env hbatch hadvert]
    exact session.handsOn env [frame]

/-! A container of an announcement, a container, a put that is announced by then, and an empty
message. -/

example : ((new (.new Connection.numberBuilder.build "b" none) () {}).receive
    ({} : Scenario.Names) ([0, 0, 0, 1, 4]
      ++ [14, 0, 0, 0, 0, 3, 2, 5] ++ Bytes.ofString "cache" ++ [1] ++ Bytes.ofString "c"
      ++ [5, 0, 0, 0, 1, 0] ++ [6, 0, 0, 0, 3, 0, 7] ++ [0])).session.stats
    = { framesReceived := 1, pathsRegistered := 1, messagesDelivered := 1, messagesDropped := 2 } :=
  rfl

end Session

end PathWire
