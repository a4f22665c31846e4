/-
What a session makes of the frames that come to it.

Frames are taken apart and their messages handed to the connection one by one, so all that matters
of a frame is what it holds.  `Tells` says that a session reports what its connection did; it holds
before anything came, and one message more on both sides keeps it.
-/
import PathWire.Proofs.Frame.Batcher

namespace PathWire

variable {A : Application} {T : Type}

/-- Bytes that come to a peer, with what the application's callbacks find around them. -/
abbrev Incoming (A : Application) := A.Env × Bytes

/-- What a connection makes of messages that come one after the other. -/
structure Heard (A : Application) where
  conn : Connection A
  outcomes : List (Except ProtocolError Delivery)
  events : List A.Event

namespace Heard

def deliveries (heard : Heard A) : List Delivery := heard.outcomes.filterMap (·.toOption)

def errors (heard : Heard A) : List SessionError :=
  heard.outcomes.filterMap fun
    | .ok _ => none
    | .error cause => some (.protocol cause)

/-- What a connection makes of some messages, and then of others. -/
def andThen (first second : Heard A) : Heard A :=
  ⟨second.conn, first.outcomes ++ second.outcomes, first.events ++ second.events⟩

end Heard

namespace Connection

def hear (conn : Connection A) : List (Incoming A) → Heard A
  | [] => ⟨conn, [], []⟩
  | (env, message) :: rest =>
    let received := conn.receive env message
    Heard.andThen ⟨received.conn, [received.outcome], received.events⟩ (received.conn.hear rest)

theorem hear_append (first second : List (Incoming A)) : ∀ conn : Connection A,
    conn.hear (first ++ second)
      = (conn.hear first).andThen ((conn.hear first).conn.hear second) := by
  induction first with
  | nil => exact fun conn => rfl
  | cons incoming rest ih =>
      intro conn
      simp only [List.cons_append, hear, ih, Heard.andThen, List.append_assoc]

/-- Messages touch the incoming ids and the caches, and nothing else. -/
theorem hear_frame (messages : List (Incoming A)) : ∀ conn : Connection A, ∃ incoming caches,
    (conn.hear messages).conn = { conn with ids := { conn.ids with incoming }, caches } := by
  induction messages with
  | nil => exact fun conn => ⟨conn.ids.incoming, conn.caches, rfl⟩
  | cons message rest ih =>
      intro conn
      obtain ⟨incoming, caches, hconn⟩ := conn.receive_frame message.1 message.2
      obtain ⟨incoming', caches', hrest⟩ := ih (conn.receive message.1 message.2).conn
      refine ⟨incoming', caches', ?_⟩
      show ((conn.receive message.1 message.2).conn.hear rest).conn = _
      rw [hrest, hconn]

end Connection

namespace Session

/-- The messages of frames, each with what is around its frame. -/
def messagesIn (arrivals : List (Incoming A)) : List (Incoming A) :=
  arrivals.flatMap fun arrival => (messagesOf arrival.2).map fun message => (arrival.1, message)

theorem bytes_messagesIn (arrivals : List (Incoming A)) :
    (messagesIn arrivals).map (·.2) = (arrivals.map (·.2)).flatMap messagesOf := by
  simp [messagesIn, List.map_flatMap, List.flatMap_map, Function.comp_def]

/-- What a session makes of frames that come one after the other. -/
def hear (session : Session A T) : List (Incoming A) → Receiving A T
  | [] => ⟨session, {}, []⟩
  | (env, frame) :: rest =>
    let received := session.receive env frame
    let heard := received.session.hear rest
    { session := heard.session
      report := {
        deliveries := received.report.deliveries ++ heard.report.deliveries
        errors := received.report.errors ++ heard.report.errors }
      events := received.events ++ heard.events }

/-- A session reports what its connection did. -/
structure Receiving.Tells (state : Receiving A T) (heard : Heard A) : Prop where
  conn : state.session.conn = heard.conn
  deliveries : state.report.deliveries = heard.deliveries
  errors : state.report.errors = heard.errors
  events : state.events = heard.events

variable {state : Receiving A T} {heard : Heard A}

/-- One message more. -/
theorem Receiving.Tells.dispatch (h : state.Tells heard) (env : A.Env) (message : Bytes) :
    (state.dispatch env message).Tells (heard.andThen (heard.conn.hear [(env, message)])) := by
  obtain ⟨hconn, hdeliveries, herrors, hevents⟩ := h
  unfold Receiving.dispatch
  rw [hconn]
  cases houtcome : (heard.conn.receive env message).outcome with
  | ok delivery =>
      constructor <;> simp [Session.count, Connection.hear, Heard.andThen, Heard.deliveries,
        Heard.errors, Except.toOption, houtcome, hdeliveries, herrors, hevents]
  | error cause =>
      constructor <;> simp [Receiving.drop, Session.count, Connection.hear, Heard.andThen,
        Heard.deliveries, Heard.errors, Except.toOption, houtcome, hdeliveries, herrors, hevents]

/-- Any number of messages more. -/
theorem Receiving.Tells.dispatchAll (env : A.Env) (messages : List Bytes) :
    ∀ {state : Receiving A T} {heard : Heard A}, state.Tells heard →
      (messages.foldl (Receiving.dispatch env) state).Tells
        (heard.andThen (heard.conn.hear (messages.map fun message => (env, message)))) := by
  induction messages with
  | nil =>
      intro state heard h
      obtain ⟨hconn, hdeliveries, herrors, hevents⟩ := h
      constructor <;>
        simpa [Connection.hear, Heard.andThen, Heard.deliveries, Heard.errors]
  | cons message rest ih =>
      intro state heard h
      have hsplit : (message :: rest).map (fun one => (env, one))
          = [(env, message)] ++ rest.map fun one => (env, one) := rfl
      rw [List.foldl_cons, hsplit, Connection.hear_append]
      have hall := ih (h.dispatch env message)
      simpa [Heard.andThen, List.append_assoc] using hall

/-- **A frame is received as its messages are, one by one.** -/
theorem receive_tells (session : Session A T) (env : A.Env) {frame : Bytes}
    (h : Readable frame) : (session.receive env frame).Tells
      (session.conn.hear ((messagesOf frame).map fun message => (env, message))) := by
  have hstart : (⟨session.count fun stats =>
      { stats with framesReceived := stats.framesReceived + 1 }, {}, []⟩ : Receiving A T).Tells
      ⟨session.conn, [], []⟩ := ⟨rfl, rfl, rfl, rfl⟩
  have hall := Receiving.Tells.dispatchAll env (messagesOf frame) hstart
  unfold Readable unpack at h
  unfold receive
  by_cases hbatch : frameTag? frame = some batchTag
  · rw [if_pos hbatch] at h
    simp only [if_pos hbatch, h]
    exact hall
  · rw [if_neg hbatch] at h
    by_cases hadvert : frameTag? frame = some bandwidthTag
    · rw [if_pos hadvert] at h
      cases hcap : decodeAdvert frame with
      | error cause =>
          rw [hcap] at h
          cases h
      | ok cap =>
          rw [hcap] at h
          have hnone : messagesOf frame = [] := (Except.ok.inj h).symm
          simp only [if_neg hbatch, if_pos hadvert, hnone]
          exact ⟨rfl, rfl, rfl, rfl⟩
    · rw [if_neg hadvert] at h
      have hone : messagesOf frame = [frame] := (Except.ok.inj h).symm
      rw [hone] at hall ⊢
      simp only [if_neg hbatch, if_neg hadvert]
      exact hall

/-- **Frames are received as their messages are, one by one.** -/
theorem hear_tells (arrivals : List (Incoming A)) : ∀ session : Session A T,
    (∀ arrival ∈ arrivals, Readable arrival.2) →
      (session.hear arrivals).Tells (session.conn.hear (messagesIn arrivals)) := by
  induction arrivals with
  | nil => exact fun session _ => ⟨rfl, rfl, rfl, rfl⟩
  | cons arrival rest ih =>
      intro session h
      obtain ⟨hfirst, hrest⟩ := List.forall_mem_cons.mp h
      obtain ⟨hconn, hdeliveries, herrors, hevents⟩ := session.receive_tells arrival.1 hfirst
      have hsplit : messagesIn (arrival :: rest)
          = (messagesOf arrival.2).map (fun message => (arrival.1, message)) ++ messagesIn rest :=
        rfl
      have hlast := ih (session.receive arrival.1 arrival.2).session hrest
      rw [hconn] at hlast
      rw [hsplit, Connection.hear_append]
      constructor
      · exact hlast.conn
      · simp only [hear, hdeliveries, hlast.deliveries, Heard.andThen, Heard.deliveries,
          List.filterMap_append]
      · simp only [hear, herrors, hlast.errors, Heard.andThen, Heard.errors,
          List.filterMap_append]
      · simp only [hear, hevents, hlast.events, Heard.andThen]

theorem hear_first {frames : List Bytes} (hreadable : ∀ frame ∈ frames, Readable frame)
    (session : Session A T) {arrivals : List (Incoming A)}
    (hfirst : arrivals.map (·.2) <+: frames) :
    (session.hear arrivals).Tells (session.conn.hear (messagesIn arrivals)) :=
  hear_tells arrivals session fun _ harrival =>
    hreadable _ (hfirst.subset (List.mem_map_of_mem harrival))

/-! ### What a frame leaves alone -/

/-- Only the incoming ids and the caches of the connection have changed, and what is counted. -/
structure Stays (before after : Session A T) : Prop where
  batcher : after.batcher = before.batcher
  transport : after.transport = before.transport
  conn : ∃ incoming caches,
    after.conn = { before.conn with ids := { before.conn.ids with incoming }, caches }

variable {before : Session A T}

theorem Stays.dispatch (h : before.Stays state.session) (env : A.Env) (message : Bytes) :
    before.Stays (state.dispatch env message).session := by
  obtain ⟨hbatcher, htransport, incoming, caches, hconn⟩ := h
  obtain ⟨incoming', caches', hreceived⟩ := state.session.conn.receive_frame env message
  have hsame := hreceived.trans (by rw [hconn])
  unfold Receiving.dispatch
  cases houtcome : (state.session.conn.receive env message).outcome <;>
    simp only [houtcome] <;> exact ⟨hbatcher, htransport, incoming', caches', hsame⟩

/-- A frame touches neither the batcher nor the transport. -/
theorem receive_stays (session : Session A T) (env : A.Env) (frame : Bytes) :
    session.Stays (session.receive env frame).session := by
  have hstart : session.Stays (session.count fun stats =>
      { stats with framesReceived := stats.framesReceived + 1 }) :=
    ⟨rfl, rfl, session.conn.ids.incoming, session.conn.caches, rfl⟩
  have hsame : ∀ {after : Session A T}, after.batcher = session.batcher →
      after.transport = session.transport → after.conn = session.conn → session.Stays after :=
    fun hbatcher htransport hconn => ⟨hbatcher, htransport, hconn ▸ hstart.conn⟩
  unfold receive
  split
  · split
    · exact List.foldlRecOn (motive := fun state : Receiving A T => session.Stays state.session)
        _ _ hstart fun _ h message _ => h.dispatch env message
    · exact hsame rfl rfl rfl
  · split
    · split <;> exact hsame rfl rfl rfl
    · exact Stays.dispatch hstart env frame

end Session

end PathWire
