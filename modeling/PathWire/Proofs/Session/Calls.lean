/-
A session from its first call on.

Whatever is called on a session, its connection first does something, and what it has queued by
then is taken over at once.  So two things are followed through a run: `Sending` knows the messages
that the connection has queued, and `Passes` what has become of them.
-/
import PathWire.Proofs.Peer.Action
import PathWire.Proofs.Peer.Channel
import PathWire.Proofs.Session.Hearing
import PathWire.Proofs.Session.Writing

namespace PathWire

variable {A : Application} {T : Type} {α : Type}

/-- Something that is called on a session. -/
inductive SessionCall (A : Application) : Type 1
  | send {α : Type} {type : ContextType A} (env : A.Env) (endpoint : EndpointRef type)
      (value : type.El) (priority : Priority) (payload : Payload A α)
  | sendLinked {α : Type} {type child : ContextType A} (env : A.Env) (endpoint : EndpointRef type)
      (value : type.El) (link : DynamicLink child) (priority : Priority) (payload : Payload A α)
  | signal {type : ContextType A} (env : A.Env) (endpoint : EndpointRef type) (value : type.El)
  | through {α : Type} (step : Connection A → Except ProtocolError α × Connection A)
  | receive (env : A.Env) (frame : Bytes)
  | start
  | tick
  | flush

namespace SessionCall

/-- The call, up to what it answers. -/
def run [Transport T] : SessionCall A → SessionAction A T Unit
  | send env endpoint value priority payload => do
    let _ ← SessionAction.send env endpoint value priority payload
    return ()
  | sendLinked env endpoint value link priority payload => do
    let _ ← SessionAction.sendLinked env endpoint value link priority payload
    return ()
  | signal env endpoint value => SessionAction.signal env endpoint value
  | through step => do
    let _ ← SessionAction.withConnection step
    return ()
  | receive env frame => modify fun session => (session.receive env frame).session
  | start => SessionAction.start
  | tick => SessionAction.tick
  | flush => SessionAction.flush

/-- The connection when a call has done with it, and what it queued is taken over. -/
def connected (session : Session A T) : SessionCall A → Connection A
  | send env endpoint value priority payload =>
    session.conn.afterSend (session.conn.send env endpoint value priority payload)
  | sendLinked env endpoint value link priority payload =>
    session.conn.afterSend (session.conn.sendLinked env endpoint value link priority payload)
  | signal env endpoint value => session.conn.afterSend (session.conn.signal env endpoint value)
  | through step => (step session.conn).2
  | receive env frame => (session.receive env frame).session.conn
  | start | tick | flush => session.conn

/-- What the application writes in a call, it writes behind what is there; and a step of its own on
the connection is made of the library's actions, such as cache assignments. -/
def WritesOn : SessionCall A → Prop
  | send _ _ _ _ payload | sendLinked _ _ _ _ _ payload => payload.WritesOn
  | through step => ∀ conn, ∃ actions : List (Action A),
    (∀ action ∈ actions, action.WritesOn) ∧ (step conn).2 = actions.foldl Action.perform conn
  | signal _ _ _ | receive _ _ | start | tick | flush => True

/-- The calls that leave nothing in the queue if they succeed. -/
def Settles : SessionCall A → Prop
  | send _ _ _ priority _ | sendLinked _ _ _ _ priority _ => priority = .urgent
  | tick | flush => True
  | signal _ _ _ | through _ | receive _ _ | start => False

end SessionCall

namespace Session

/-- A session on a fresh connection. -/
def fresh (tree : Tree A) (label : String) (attachment : Option (Value A)) (transport : T)
    (config : SessionConfig) : Session A T := .new (.new tree label attachment) transport config

variable [Transport T]

/-- The session after a call, whether it succeeded or not. -/
def perform (session : Session A T) (call : SessionCall A) : Session A T := call.run.after session

def live (session : Session A T) (calls : List (SessionCall A)) : Session A T :=
  calls.foldl perform session

/-- The messages that the connection queues during calls. -/
def outgoing (session : Session A T) : List (SessionCall A) → List Outbound
  | [] => []
  | call :: rest => (call.connected session).outbox ++ (session.perform call).outgoing rest

theorem outgoing_append (first rest : List (SessionCall A)) : ∀ session : Session A T,
    session.outgoing (first ++ rest) = session.outgoing first ++ (session.live first).outgoing rest
    := by
  induction first with
  | nil => exact fun _ => rfl
  | cons call first ih =>
      intro session
      rw [List.cons_append, outgoing, outgoing, ih, List.append_assoc]
      rfl

end Session

/-! ### One call -/

theorem Connection.drain_of_empty {conn : Connection A} (h : conn.outbox = []) :
    conn.drain.2 = conn := by
  obtain ⟨tree, label, ids, caches, attachment, outbox⟩ := conn
  cases h
  rfl

/-- A session in which all that a connection has queued is taken over. -/
structure Session.Collects [Transport T] (accepted : T → List Bytes) (before : Session A T)
    (conn : Connection A) (after : Session A T) : Prop where
  drained : after.conn = conn.drain.2
  passes : ∃ frames, before.Passes accepted (conn.outbox.map (·.bytes)) frames after

namespace SessionAction

open Session (Collects Ready)

theorem get_ok (session : Session A T) :
    (get : SessionAction A T (Session A T)) session = .ok session session := rfl

/-- What follows on an action does not matter if it leaves the session alone. -/
theorem after_bind {β : Type} (action : SessionAction A T α) {next : α → SessionAction A T β}
    (hnext : ∀ value session, (next value).after session = session) (session : Session A T) :
    (action >>= next).after session = action.after session := by
  cases hrun : action session with
  | ok value between =>
      have hsame : (action >>= next) session = next value between := Step.bind_ok hrun
      rw [after_ok hrun, ← hnext value between]
      simp only [SessionAction.after, hsame]
  | error cause between => rw [after_error hrun, after_error (Step.bind_error hrun)]

variable [Transport T] {accepted : T → List Bytes} {session : Session A T}

theorem collect_collects (hrecords : Transport.Records accepted) {conn : Connection A}
    (hready : session.Ready (conn.outbox.map (·.bytes))) :
    session.Collects accepted conn (collect.after { session with conn }) := by
  have hready : Ready { session with conn := conn.drain.2 } (conn.outbox.map (·.bytes)) :=
    ⟨hready.sound, hready.packable, hready.plain⟩
  obtain ⟨hconn, ⟨frames, hpasses⟩, -⟩ := Session.pushAll_takes hrecords conn.outbox hready
  exact ⟨hconn, frames, hpasses.congr rfl rfl rfl rfl⟩

/-- Nothing is taken over if nothing was queued. -/
theorem collects_nothing {action : SessionAction A T α}
    (h : Session.Takes accepted action session []) (hdrained : session.conn.outbox = []) :
    session.Collects accepted session.conn (action.after session) := by
  obtain ⟨hconn, hpasses, -⟩ := h
  refine ⟨?_, ?_⟩
  · rw [hconn, Connection.drain_of_empty hdrained]
  · rw [hdrained]
    exact hpasses

/-- A refused step leaves the session as it was. -/
theorem onConnection_error {step : Connection A → Except ProtocolError (α × Connection A)}
    {cause : ProtocolError} (h : step session.conn = .error cause) :
    (onConnection step).after session = session := by
  have hrun : onConnection step session = .error (.protocol cause) session := by
    unfold onConnection
    rw [Step.bind_ok (get_ok session)]
    simp only [h]
    rfl
  exact after_error hrun

/-- What any other step leaves behind is collected. -/
theorem onConnection_ok {step : Connection A → Except ProtocolError (α × Connection A)} {value : α}
    {conn : Connection A} (h : step session.conn = .ok (value, conn)) :
    (onConnection step).after session = collect.after { session with conn } := by
  have hrun : (onConnection step).after session
      = SessionAction.after (do collect; return value) { session with conn } := by
    unfold onConnection SessionAction.after
    rw [Step.bind_ok (get_ok session)]
    simp only [h]
    rfl
  rw [hrun, after_bind collect fun _ _ => rfl]

theorem withConnection_after (step : Connection A → Except ProtocolError α × Connection A) :
    (withConnection step).after session
      = collect.after { session with conn := (step session.conn).2 } := by
  refine after_bind collect (fun _ _ => ?_) _
  cases (step session.conn).1 <;> rfl

theorem onConnection_collects (hrecords : Transport.Records accepted)
    (step : Connection A → Except ProtocolError (α × Connection A))
    (hdrained : session.conn.outbox = [])
    (hready : session.Ready ((session.conn.afterSend (step session.conn)).outbox.map (·.bytes))) :
    session.Collects accepted (session.conn.afterSend (step session.conn))
      ((onConnection step).after session) := by
  cases hstep : step session.conn with
  | error cause =>
      rw [onConnection_error hstep]
      refine ⟨(Connection.drain_of_empty hdrained).symm, [], ?_⟩
      show session.Passes accepted (session.conn.outbox.map (·.bytes)) [] session
      rw [hdrained]
      exact .nothing rfl rfl hready.sound
  | ok result =>
      obtain ⟨value, conn⟩ := result
      rw [hstep] at hready
      rw [onConnection_ok hstep]
      exact collect_collects hrecords hready

theorem withConnection_collects (hrecords : Transport.Records accepted)
    (step : Connection A → Except ProtocolError α × Connection A)
    (hready : session.Ready ((step session.conn).2.outbox.map (·.bytes))) :
    session.Collects accepted (step session.conn).2 ((withConnection step).after session) := by
  rw [withConnection_after]
  exact collect_collects hrecords hready

end SessionAction

namespace Session

variable [Transport T] {accepted : T → List Bytes} {session : Session A T}

open SessionAction

section Answered

variable {α : Type} {type child : ContextType A} {env : A.Env} {endpoint : EndpointRef type}
  {value : type.El} {link : DynamicLink child} {priority : Priority} {payload : Payload A α}
  {step : Connection A → Except ProtocolError α × Connection A}

/-! What a call answers does not matter to the session. -/

theorem perform_send : session.perform (.send env endpoint value priority payload)
    = (SessionAction.send env endpoint value priority payload).after session :=
  after_bind _ (fun _ _ => rfl) session

theorem perform_sendLinked : session.perform (.sendLinked env endpoint value link priority payload)
    = (SessionAction.sendLinked env endpoint value link priority payload).after session :=
  after_bind _ (fun _ _ => rfl) session

theorem perform_through :
    session.perform (.through step) = (SessionAction.withConnection step).after session :=
  after_bind _ (fun _ _ => rfl) session

end Answered

/-- **After a call everything that the connection has queued is taken over.** -/
theorem perform_collects (hrecords : Transport.Records accepted) (call : SessionCall A)
    (hdrained : session.conn.outbox = [])
    (hready : session.Ready ((call.connected session).outbox.map (·.bytes))) :
    session.Collects accepted (call.connected session) (session.perform call) := by
  have hnone : session.conn.outbox.map (·.bytes) = [] := by rw [hdrained, List.map_nil]
  cases call with
  | send env endpoint value priority payload =>
      rw [perform_send]
      exact onConnection_collects hrecords (·.send env endpoint value priority payload) hdrained
        hready
  | sendLinked env endpoint value link priority payload =>
      rw [perform_sendLinked]
      exact onConnection_collects hrecords
        (·.sendLinked env endpoint value link priority payload) hdrained hready
  | signal env endpoint value =>
      exact onConnection_collects hrecords (·.signal env endpoint value) hdrained hready
  | through step =>
      rw [perform_through]
      exact withConnection_collects hrecords step hready
  | receive env frame =>
      obtain ⟨hbatcher, htransport, incoming, caches, hconn⟩ := session.receive_stays env frame
      have houtbox : (session.receive env frame).session.conn.outbox = [] := by
        rw [hconn]
        exact hdrained
      refine ⟨(Connection.drain_of_empty houtbox).symm, [], ?_⟩
      show session.Passes accepted ((session.receive env frame).session.conn.outbox.map _) [] _
      rw [houtbox]
      exact .nothing hbatcher htransport hready.sound
  | start => exact collects_nothing (start_takes hrecords hready.sound) hdrained
  | tick =>
      have hready : session.Ready [] := hnone ▸ hready
      exact collects_nothing (tick_takes hrecords hready) hdrained
  | flush =>
      have hready : session.Ready [] := hnone ▸ hready
      exact collects_nothing (flush_takes hrecords hready) hdrained

end Session

/-! ### The messages of a connection

For a connection that only sends, everything is under way: nothing comes through as long as the
trace goes on, so the messages are those that were ever queued. -/

/-- A connection of the tree, with the messages that it has queued so far. -/
structure Sending (tree : Tree A) (conn : Connection A) (sent : List Outbound)
    (posted : List Posted) : Prop where
  same : conn.tree = tree
  limit : conn.ids.maxId = tree.revision.maxIncomingId.toNat
  channel : Channel tree conn.ids (sent ++ conn.outbox) posted 0
    (.new tree.revision.maxIncomingId.toNat)

namespace Sending

variable {tree : Tree A} {conn : Connection A} {sent : List Outbound} {posted : List Posted}

theorem field (h : Sending tree conn sent posted) : conn.ids.maxId < 2 ^ 32 :=
  h.limit ▸ tree.revision.maxIncomingId.toNat_lt

theorem act (h : Sending tree conn sent posted) (hshaped : tree.Shaped) (hwrites : tree.WritesOn)
    {action : Action A} (haction : action.WritesOn) :
    ∃ more, Sending tree (action.perform conn) sent (posted ++ more) := by
  obtain ⟨rfl, hlimit, hchannel⟩ := h
  obtain ⟨htree, hqueues⟩ := action.queues hshaped hwrites haction
  exact ⟨_, htree, hqueues.frame.2.trans hlimit, hchannel.queue hqueues⟩

theorem actAll (hshaped : tree.Shaped) (hwrites : tree.WritesOn) (actions : List (Action A)) :
    ∀ {conn : Connection A} {posted : List Posted}, Sending tree conn sent posted →
      (∀ action ∈ actions, action.WritesOn) →
        ∃ more, Sending tree (actions.foldl Action.perform conn) sent (posted ++ more) := by
  induction actions with
  | nil =>
      intro conn posted h _
      exact ⟨[], (List.append_nil posted).symm ▸ h⟩
  | cons action rest ih =>
      intro conn posted h hactions
      obtain ⟨haction, hrest⟩ := List.forall_mem_cons.mp hactions
      obtain ⟨first, h⟩ := h.act hshaped hwrites haction
      obtain ⟨more, h⟩ := ih h hrest
      exact ⟨first ++ more, List.append_assoc posted first more ▸ h⟩

/-- What comes to the connection does not matter. -/
theorem receive (h : Sending tree conn sent posted) {after : Connection A}
    {incoming : Array (Option ResolvedPath)} {caches : CacheStore A}
    (hafter : after = { conn with ids := { conn.ids with incoming }, caches }) :
    Sending tree after sent posted := by
  subst hafter
  exact ⟨h.same, h.limit, h.channel.rebind incoming⟩

theorem drain (h : Sending tree conn sent posted) :
    Sending tree conn.drain.2 (sent ++ conn.outbox) posted := by
  have hall : sent ++ conn.outbox ++ conn.drain.2.outbox = sent ++ conn.outbox :=
    List.append_nil _
  exact ⟨h.same, h.limit, hall.symm ▸ h.channel⟩

/-- Every message that was queued can travel alone: its tag is none of a frame's. -/
theorem plain (h : Sending tree conn sent posted) :
    ∀ bytes ∈ (sent ++ conn.outbox).map (·.bytes), Session.Plain bytes := by
  intro bytes hmem
  rw [← h.channel.pending] at hmem
  obtain ⟨message, hmessage, rfl⟩ := List.mem_map.mp hmem
  have htag : ∃ tag, messageTag? message.bytes = some tag ∧ tag ≠ batchTag ∧
      tag ≠ bandwidthTag := by
    obtain ⟨id, hid, -, ⟨hannounce, -⟩ | ⟨-, htag⟩⟩ := h.channel.kind h.field hmessage
    · exact ⟨announceTag, hannounce, by decide, by decide⟩
    · have hfirst := (h.channel.numbered.range hid).1
      have hreserved : batchTag < firstAllocatedId ∧ bandwidthTag < firstAllocatedId := by decide
      exact ⟨id, htag, by omega, by omega⟩
  obtain ⟨tag, htag, hbatch, hadvert⟩ := htag
  have hframe := Session.frameTag?_message htag
  refine ⟨?_, ?_⟩ <;> rw [hframe] <;> simpa

/-- A session takes over what the connection has queued if its batcher holds nothing else than
messages from before. -/
theorem ready (h : Sending tree conn sent posted) {session : Session A T}
    (hsound : session.batcher.Sound)
    (hqueue : session.batcher.queue.Sublist (sent.map (·.bytes)))
    (hpack : Batcher.Packable session.batcher.maxFrameBytes
      ((sent ++ conn.outbox).map (·.bytes))) :
    session.Ready (conn.outbox.map (·.bytes)) := by
  have hwaiting : (session.batcher.queue ++ conn.outbox.map (·.bytes)).Sublist
      ((sent ++ conn.outbox).map (·.bytes)) := by
    rw [List.map_append]
    exact hqueue.append (List.Sublist.refl _)
  exact ⟨hsound, hpack.sublist hwaiting,
    fun message hmem => h.plain message (hwaiting.subset hmem)⟩

end Sending

/-- What a call makes of the connection goes on with its messages. -/
theorem SessionCall.sends {tree : Tree A} (hshaped : tree.Shaped) (hwrites : tree.WritesOn)
    {session : Session A T} {sent : List Outbound} {posted : List Posted}
    (h : Sending tree session.conn sent posted) (call : SessionCall A) (hcall : call.WritesOn) :
    ∃ more, Sending tree (call.connected session) sent (posted ++ more) := by
  cases call with
  | send env endpoint value priority payload =>
      have haction : (Action.send env endpoint value priority payload).WritesOn := hcall
      exact h.act hshaped hwrites haction
  | sendLinked env endpoint value link priority payload =>
      have haction : (Action.sendLinked env endpoint value link priority payload).WritesOn := hcall
      exact h.act hshaped hwrites haction
  | signal env endpoint value =>
      have haction : (Action.signal env endpoint value).WritesOn := trivial
      exact h.act hshaped hwrites haction
  | through step =>
      obtain ⟨actions, hactions, hstep⟩ := hcall session.conn
      obtain ⟨more, h⟩ := Sending.actAll hshaped hwrites actions h hactions
      refine ⟨more, ?_⟩
      show Sending tree (step session.conn).2 sent (posted ++ more)
      rw [hstep]
      exact h
  | receive env frame =>
      obtain ⟨-, -, incoming, caches, hconn⟩ := session.receive_stays env frame
      exact ⟨[], (List.append_nil posted).symm ▸ h.receive hconn⟩
  | start | tick | flush => exact ⟨[], (List.append_nil posted).symm ▸ h⟩

/-! ### All calls -/

namespace Session

variable [Transport T] {accepted : T → List Bytes} {start session : Session A T} {tree : Tree A}
  {sent : List Outbound} {posted : List Posted} {frames : List Bytes}

/-- What is known of a session between two calls. -/
structure Traced (accepted : T → List Bytes) (tree : Tree A) (start session : Session A T)
    (sent : List Outbound) (posted : List Posted) (frames : List Bytes) : Prop where
  drained : session.conn.outbox = []
  sending : Sending tree session.conn sent posted
  passes : start.Passes accepted (sent.map (·.bytes)) frames session

theorem traced_fresh (accepted : T → List Bytes) (tree : Tree A) (label : String)
    (attachment : Option (Value A)) (transport : T) (config : SessionConfig) :
    Traced accepted tree (fresh tree label attachment transport config)
      (fresh tree label attachment transport config) [] [] [] where
  drained := rfl
  sending := ⟨rfl, rfl, Channel.start tree _⟩
  passes := .nothing rfl rfl (Batcher.sound_new _)

/-- **A call goes on with the trace**, whether it succeeds or not. -/
theorem Traced.perform (h : Traced accepted tree start session sent posted frames)
    (hstart : start.batcher.queue = []) (hshaped : tree.Shaped) (hwrites : tree.WritesOn)
    (hrecords : Transport.Records accepted) (call : SessionCall A) (hcall : call.WritesOn)
    (hpack : Batcher.Packable start.batcher.maxFrameBytes
      ((sent ++ (call.connected session).outbox).map (·.bytes))) :
    ∃ posted frames, Traced accepted tree start (session.perform call)
      (sent ++ (call.connected session).outbox) posted frames := by
  obtain ⟨hdrained, hsending, hpasses⟩ := h
  obtain ⟨more, hsending⟩ := call.sends hshaped hwrites hsending hcall
  have hqueue : session.batcher.queue.Sublist (sent.map (·.bytes)) := by
    have hbehind := (List.sublist_append_right _ _).trans hpasses.behind
    rwa [hstart, List.nil_append] at hbehind
  have hready := hsending.ready hpasses.sound hqueue (hpasses.limit ▸ hpack)
  obtain ⟨hconn, rest, hrest⟩ := perform_collects hrecords call hdrained hready
  refine ⟨posted ++ more, frames ++ rest, ?_, ?_, ?_⟩
  · rw [hconn]
    rfl
  · rw [hconn]
    exact hsending.drain
  · rw [List.map_append]
    exact hpasses.trans hrest

/-- The trace of any number of calls. -/
theorem Traced.live (h : Traced accepted tree start session sent posted frames)
    (hstart : start.batcher.queue = []) (hshaped : tree.Shaped) (hwrites : tree.WritesOn)
    (hrecords : Transport.Records accepted) (calls : List (SessionCall A))
    (hcalls : ∀ call ∈ calls, call.WritesOn)
    (hpack : Batcher.Packable start.batcher.maxFrameBytes
      ((sent ++ session.outgoing calls).map (·.bytes))) :
    ∃ posted frames, Traced accepted tree start (session.live calls)
      (sent ++ session.outgoing calls) posted frames := by
  induction calls generalizing session sent posted frames with
  | nil =>
      rw [outgoing, List.append_nil]
      exact ⟨posted, frames, h⟩
  | cons call rest ih =>
      obtain ⟨hcall, hrest⟩ := List.forall_mem_cons.mp hcalls
      rw [outgoing, ← List.append_assoc] at hpack ⊢
      have hfirst := hpack.sublist ((List.sublist_append_left _ _).map _)
      obtain ⟨posted, frames, h⟩ := h.perform hstart hshaped hwrites hrecords call hcall hfirst
      exact ih h hrest hpack

end Session

end PathWire
