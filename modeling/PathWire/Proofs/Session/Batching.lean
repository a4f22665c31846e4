/-
Batching is invisible to the peer.

How messages are grouped into frames depends on their sizes and priorities and on when the queue is
flushed.  None of this can be told at the other end: the frames hold what the connection has queued,
and a session that receives them does what its connection does with the messages one by one.

There is one exception.  The settings allow frames that are longer than a container can say of a
message.  A message of that length waits with others as long as it keeps the limit, and the flush
that would put them into one container fails: the whole queue is lost then, although the transport
accepts every frame.
-/
import PathWire.Proofs.Frame.Sizes
import PathWire.Proofs.Peer.Agreement
import PathWire.Proofs.Session.Calls
import PathWire.Session.Config

namespace PathWire

variable {A : Application} {T : Type} {α : Type}

/-! ### Calls that leave nothing in the queue -/

namespace SessionAction

variable [Transport T] {before after : Session A T}

theorem collect_empties {outbox : List Outbound} {message : Outbound}
    (h : collect before = .ok () after) (houtbox : before.conn.outbox = outbox ++ [message])
    (hurgent : message.priority = .urgent) : after.batcher.queue = [] := by
  have hrun : collect before
      = pushAll before.conn.outbox { before with conn := before.conn.drain.2 } := rfl
  rw [hrun, houtbox] at h
  exact Session.pushAll_empties outbox hurgent h

/-- A step that queues an urgent message leaves nothing in the queue. -/
theorem onConnection_empties {step : Connection A → Except ProtocolError (α × Connection A)}
    {value : α} (h : onConnection step before = .ok value after)
    (hstep : ∀ {found conn}, step before.conn = .ok (found, conn) →
      ∃ outbox bytes, conn.outbox = outbox ++ [⟨bytes, .urgent⟩]) : after.batcher.queue = [] := by
  unfold onConnection at h
  rw [Step.bind_ok (get_ok before)] at h
  cases hrun : step before.conn with
  | error cause =>
      simp only [hrun] at h
      cases h
  | ok result =>
      obtain ⟨found, conn⟩ := result
      simp only [hrun] at h
      obtain ⟨⟨⟩, between, hset, h⟩ := Step.of_bind_ok h
      cases hset
      obtain ⟨⟨⟩, collected, hcollect, hreturn⟩ := Step.of_bind_ok h
      cases hreturn
      obtain ⟨outbox, bytes, houtbox⟩ := hstep hrun
      exact collect_empties hcollect houtbox rfl

end SessionAction

theorem Connection.sendValue_outbox {conn after : Connection A} {env : A.Env}
    {endpoint : NodeIndex} {value : Value A} {chosen : Option (LinkChoice A)} {priority : Priority}
    {payload : Payload A α} {answer : α}
    (h : conn.sendValue env endpoint value chosen priority payload = .ok (answer, after)) :
    ∃ outbox bytes, after.outbox = outbox ++ [⟨bytes, priority⟩] := by
  obtain ⟨sent⟩ := sendValue_ok h
  rw [sent.queued]
  exact ⟨_, _, rfl⟩

/-- **A flush, a tick and an urgent send that succeed leave nothing in the queue.** -/
theorem SessionCall.Settles.empties [Transport T] {call : SessionCall A} (hcall : call.Settles)
    {before after : Session A T} (h : call.run before = .ok () after) :
    after.batcher.queue = [] := by
  cases call with
  | send env endpoint value priority payload =>
      obtain ⟨found, sent, hsend, hreturn⟩ := Step.of_bind_ok h
      cases hreturn
      cases (hcall : priority = .urgent)
      exact SessionAction.onConnection_empties hsend Connection.sendValue_outbox
  | sendLinked env endpoint value link priority payload =>
      obtain ⟨found, sent, hsend, hreturn⟩ := Step.of_bind_ok h
      cases hreturn
      cases (hcall : priority = .urgent)
      exact SessionAction.onConnection_empties hsend Connection.sendValue_outbox
  | tick => exact Session.tick_empties h
  | flush => exact Session.flush_empties h
  | signal | through | receive | start => exact absurd hcall not_false

/-! ### What it means for the peer -/

/-- What is promised of the frames that a session has written while its connection queued some
messages. -/
structure Session.Unnoticed [Transport T] (session : Session A T) (frames messages : List Bytes) :
    Prop where
  readable : ∀ frame ∈ frames, Readable frame
  /-- The messages in the frames, and behind them the queue, are those of the connection. -/
  whole : frames.flatMap messagesOf ++ session.batcher.queue = messages
  drained : session.conn.outbox = []
  /-- A session that receives some of the frames in order does what its connection does with the
  messages. -/
  heard : ∀ {R : Type} (peer : Session A R) (arrivals : List (Incoming A)),
    arrivals.map (·.2) <+: frames →
      (peer.hear arrivals).Tells (peer.conn.hear (messagesIn arrivals))
  settled : ∀ (call : SessionCall A) (after : Session A T), call.Settles →
    call.run session = .ok () after → after.batcher.queue = []

/-- **Batching is invisible to the peer**, whatever is called on the session, if its transport
accepts every frame.  A container counts messages and bytes in fields of 32 bits, so a message that
keeps the limit must be one that such a field can count. -/
theorem batching_unnoticed [Transport T] {revision : Revision}
    {allowed : List (Handle A) → BuilderCall A → Prop} {builder : TreeBuilder A}
    {handles : List (Handle A)} (hbuilt : Built revision allowed builder handles)
    (hwrites : builder.build.WritesOn) {accepted : T → List Bytes}
    (hrecords : Transport.Records accepted) (haccepts : Transport.Accepts T) (label : String)
    (attachment : Option (Value A)) (transport : T) (config : SessionConfig)
    (calls : List (SessionCall A)) (hcalls : ∀ call ∈ calls, call.WritesOn)
    (hpack : Batcher.Packable config.session.maxFrameBytes
      (((Session.fresh builder.build label attachment transport config).outgoing calls).map
        (·.bytes))) :
    ∃ frames, accepted ((Session.fresh builder.build label attachment transport config).live
        calls).transport = accepted transport ++ frames ∧
      ((Session.fresh builder.build label attachment transport config).live calls).Unnoticed frames
        (((Session.fresh builder.build label attachment transport config).outgoing calls).map
          (·.bytes)) := by
  have hfresh := Session.traced_fresh accepted builder.build label attachment transport config
  obtain ⟨posted, frames, htraced⟩ :=
    hfresh.live rfl hbuilt.shaped hwrites hrecords calls hcalls hpack
  have hpasses := htraced.passes
  refine ⟨frames, hpasses.accepted, hpasses.readable, ?_, htraced.drained, ?_, ?_⟩
  · exact hpasses.whole.resolve_left (haccepts.unbroken _)
  · exact fun peer _ hcame => Session.hear_first hpasses.readable peer hcame
  · exact fun call after hcall hrun => hcall.empties hrun

/-! Greetings from two seats. -/

theorem FrameList.records : Transport.Records FrameList.frames where
  ok h := by
    cases h
    rfl
  error h := by cases h

theorem FrameList.accepts : Transport.Accepts FrameList := fun _ _ => ⟨_, rfl⟩

def greetFrom (seat : Int64) (priority : Priority) : SessionCall Scenario.app :=
  .send ({} : Scenario.Names) (⟨⟨2⟩⟩ : EndpointRef Scenario.valType) [.int seat] priority .nothing

/-- A step that greets and fails all the same. -/
def greetAndFail (conn : Connection Scenario.app) :
    Except ProtocolError Unit × Connection Scenario.app :=
  (.error (.idsExhausted 0), (greeting 9).perform conn)

def greetAgain : List (SessionCall Scenario.app) :=
  [.start, greetFrom 7 .normal, greetFrom 8 .urgent, .through greetAndFail]

def greeter : Session Scenario.app FrameList :=
  .fresh seatBuilder.build "peer" none ⟨[]⟩ {}

/-- An advertisement and a container of three messages are written, and the fourth message waits. -/
theorem greetings_unnoticed :
    (∃ frames, (greeter.live greetAgain).transport.frames = [] ++ frames ∧
      (greeter.live greetAgain).Unnoticed frames ((greeter.outgoing greetAgain).map (·.bytes))) ∧
      (greeter.live greetAgain).transport.frames.map (List.length ∘ Session.messagesOf) = [0, 3] ∧
      (greeter.live greetAgain).pending = 1 := by
  have hcalls : ∀ call ∈ greetAgain, call.WritesOn := by
    simp only [greetAgain, greetFrom, List.forall_mem_cons, SessionCall.WritesOn]
    refine ⟨trivial, Payload.nothing_writesOn, Payload.nothing_writesOn, fun conn => ?_,
      List.forall_mem_nil _⟩
    exact ⟨[greeting 9], List.forall_mem_singleton.mpr trivial, rfl⟩
  refine ⟨?_, by decide +kernel, by decide +kernel⟩
  exact batching_unnoticed seatBuilder_built seatTree_writesOn FrameList.records FrameList.accepts
    "peer" none ⟨[]⟩ {} greetAgain hcalls (.of_limit (by decide) _)

/-! ### A queue that no container holds -/

namespace Session

variable [Transport T]

/-- Messages that are not urgent wait together if their container keeps the limit. -/
theorem pushAll_waits (outbox : List Outbound) : ∀ session : Session A T,
    session.batcher.Tallied → (∀ message ∈ outbox, message.priority = .normal) →
    Batcher.containerSize (session.batcher.queue ++ outbox.map (·.bytes))
      ≤ session.batcher.maxFrameBytes →
    ∃ batcher, SessionAction.pushAll outbox session = .ok () { session with
        batcher
        stats := { session.stats with
          messagesSent := session.stats.messagesSent + outbox.length } } ∧
      batcher.queue = session.batcher.queue ++ outbox.map (·.bytes) ∧
      batcher.maxFrameBytes = session.batcher.maxFrameBytes := by
  induction outbox with
  | nil => exact fun _ _ _ _ => ⟨_, rfl, (List.append_nil _).symm, rfl⟩
  | cons message rest ih =>
      intro session htallied hnormal hsize
      obtain ⟨hmessage, hrest⟩ := List.forall_mem_cons.mp hnormal
      rw [List.map_cons, List.append_cons] at hsize
      have hfirst := Nat.le_trans (Batcher.containerSize_le_append _ _) hsize
      obtain ⟨hpush, htallied⟩ := htallied.push_waits message hmessage hfirst
      let counted : Session A T := session.count fun stats =>
        { stats with messagesSent := stats.messagesSent + 1 }
      let change : SessionStats → SessionStats := fun stats =>
        { stats with messagesDiscarded := stats.messagesDiscarded + rest.length }
      have hbatcher : SessionAction.onBatcher (·.push message) counted
          = .ok [] { counted with batcher := session.batcher.enqueue message.bytes } :=
        onBatcher_ok hpush
      have hpushed : SessionAction.push message counted
          = .ok () { counted with batcher := session.batcher.enqueue message.bytes } :=
        Step.bind_ok hbatcher
      obtain ⟨batcher, hall, hqueue, hlimit⟩ :=
        ih { counted with batcher := session.batcher.enqueue message.bytes } htallied hrest hsize
      refine ⟨batcher, ?_, hqueue.trans (List.append_cons _ _ _).symm, hlimit⟩
      have hrun : SessionAction.pushAll (message :: rest) session
          = ((SessionAction.push message).orCount change >>= fun _ => SessionAction.pushAll rest)
            counted := rfl
      rw [hrun, Step.bind_ok (SessionAction.orCount_ok hpushed change), hall]
      simp [counted, count, Nat.add_assoc, Nat.add_comm 1]

/-- **A flush that makes no frame loses the queue**, and nothing tells of it but its answer. -/
theorem flush_lost {session : Session A T} {cause : SessionError}
    (h : session.batcher.flush.1 = .error cause) : session.perform .flush
      = { session with batcher := .new session.batcher.maxFrameBytes } := by
  have hflush : session.batcher.flush = (.error cause, .new session.batcher.maxFrameBytes) := by
    rw [← h]
    rfl
  have hbatcher : SessionAction.onBatcher (·.flush) session
      = .error cause { session with batcher := .new session.batcher.maxFrameBytes } := by
    simp only [SessionAction.onBatcher, hflush]
  exact SessionAction.after_error (Step.bind_error hbatcher)

end Session

/-! A greeting that keeps the limit of a frame and is too long for a container. -/

/-- A payload of raw bytes behind their length. -/
def Payload.block (data : Bytes) : Payload A Unit := fun _ _ enc =>
  (liftCodec (enc.writeByteBlock data)).map fun written => ((), written)

theorem Payload.block_writesOn (data : Bytes) : (block data : Payload A Unit).WritesOn := by
  intro ctx caches enc answer after h
  obtain ⟨written, hwrite, hafter⟩ := Result.of_map_ok h
  obtain ⟨-, rfl⟩ := Prod.mk.inj hafter
  have hfield : enc.write (.block data) = .ok written := Connection.liftCodec_ok hwrite
  exact .of_write hfield

def greetAnnounce : Bytes := [0, 0, 0, 0, 3, 2, 4, 115, 101, 97, 116, 5, 103, 114, 101, 101, 116]

/-- The first greeting that brings a block. -/
theorem greet_block {data : Bytes} (h : data.length ≤ maxLengthField) : ∃ after,
    greeter.conn.send ({} : Scenario.Names) (⟨⟨2⟩⟩ : EndpointRef Scenario.valType) [.int 7] .normal
      (.block data) = .ok ((), after) ∧
      after.outbox = [⟨greetAnnounce, .normal⟩,
        ⟨[0, 0, 0, 3, 7] ++ Encoder.counted data, .normal⟩] := by
  have hwrite : ∀ enc : Encoder, enc.writeByteBlock data
      = .ok ((enc.record .byteBlock).append (Encoder.counted data)) := fun _ => if_pos h
  have hannounce : Connection.announce seatBuilder.build 3 [⟨1⟩, ⟨2⟩] = .ok greetAnnounce := by
    decide +kernel
  let keyed : Encoder := ⟨#[0, 0, 0, 3, 7], [], none⟩
  let ids := greeter.conn.ids.commit [⟨1⟩, ⟨2⟩] 3
  have hsent : Connection.Departure greeter.conn ({} : Scenario.Names) ⟨2⟩
      ⟨Scenario.valType, [.int 7]⟩ none .normal (.block data) () _ := {
    route := _
    id := 3
    keyed := keyed
    written := (keyed.record .byteBlock).append (Encoder.counted data)
    introduced := { greeter.conn with ids }.enqueue greetAnnounce .normal
    addressed := rfl
    resolved := rfl
    numbered := rfl
    carried := rfl
    filled := by
      simp only [Payload.block, hwrite]
      rfl
    announced := Result.bind_ok hannounce
    queued := rfl }
  have hbytes : ((keyed.record .byteBlock).append (Encoder.counted data)).bytes
      = [0, 0, 0, 3, 7] ++ Encoder.counted data := by
    simp [Encoder.bytes, Encoder.append, Encoder.record, Encoder.rollingBytes, keyed]
  refine ⟨_, hsent.sendValue_eq, ?_⟩
  rw [← hbytes]
  rfl

def greetBlock (data : Bytes) : SessionCall Scenario.app :=
  .send ({} : Scenario.Names) (⟨⟨2⟩⟩ : EndpointRef Scenario.valType) [.int 7] .normal (.block data)

/-- Settings that pass, with frames of more bytes than a length field can say. -/
def SessionConfig.vast : SessionConfig := { session := { maxFrameBytes := 8589934592 } }

def vastGreeter : Session Scenario.app FrameList :=
  .fresh seatBuilder.build "peer" none ⟨[]⟩ .vast

def blockGreetings (data : Bytes) : List (SessionCall Scenario.app) :=
  [.start, greetBlock data, .flush]

theorem greetBlock_perform {data : Bytes} (h : data.length ≤ maxLengthField)
    (session : Session Scenario.app FrameList) (hconn : session.conn = greeter.conn) :
    ∃ conn, (greetBlock data).connected session = conn ∧ conn.outbox = [⟨greetAnnounce, .normal⟩,
        ⟨[0, 0, 0, 3, 7] ++ Encoder.counted data, .normal⟩] ∧
      session.perform (greetBlock data) = SessionAction.after (SessionAction.pushAll conn.outbox)
        { session with conn := conn.drain.2 } := by
  obtain ⟨after, hsend, houtbox⟩ := greet_block h
  rw [← hconn] at hsend
  refine ⟨after, ?_, houtbox, ?_⟩
  · simp only [greetBlock, SessionCall.connected, hsend, Connection.afterSend]
  · have hcollect : (SessionAction.onConnection fun conn => conn.send ({} : Scenario.Names)
        (⟨⟨2⟩⟩ : EndpointRef Scenario.valType) [.int 7] .normal (.block data)).after session
        = SessionAction.collect.after { session with conn := after } :=
      SessionAction.onConnection_ok hsend
    exact Session.perform_send.trans hcollect

/-- The announce and the greeting wait for the flush, which loses both. -/
theorem blockGreetings_lost {data : Bytes} (h : data.length = 4294967295) :
    (vastGreeter.live (blockGreetings data)).transport.frames
        = [[0, 0, 0, 2, 128, 128, 64]] ∧
      (vastGreeter.live (blockGreetings data)).batcher.queue = [] ∧
      (vastGreeter.live (blockGreetings data)).stats
        = { framesSent := 1, bytesSent := 7, messagesSent := 2 } ∧
      (vastGreeter.outgoing (blockGreetings data)).length = 2 := by
  let second : Bytes := [0, 0, 0, 3, 7] ++ Encoder.counted data
  have hsecond : second.length = 4294967305 := by
    have hfield : (Varint.putUnsigned 4294967295).length = 5 := by decide +kernel
    simp [second, Encoder.counted, h, hfield]
  have hsize : Batcher.containerSize [greetAnnounce, second] ≤ 8589934592 := by
    rw [Batcher.containerSize_pair, hsecond]
    decide +kernel
  let started : Session Scenario.app FrameList := vastGreeter.perform .start
  have hframes : started.transport.frames = [[0, 0, 0, 2, 128, 128, 64]] := by
    decide +kernel
  have hstats : started.stats = { framesSent := 1, bytesSent := 7 } := by decide +kernel
  obtain ⟨conn, hconnected, houtbox, hperform⟩ :=
    greetBlock_perform (by rw [h]; decide) started rfl
  obtain ⟨batcher, hrun, hqueue, hlimit⟩ := Session.pushAll_waits conn.outbox
    { started with conn := conn.drain.2 } (Batcher.tallied_new 8589934592)
    (by simp [houtbox]) (by rw [houtbox]; exact hsize)
  let greeted : Session Scenario.app FrameList := started.perform (greetBlock data)
  have hgreeted : greeted = _ := hperform.trans (SessionAction.after_ok hrun)
  have hbatcher : greeted.batcher = batcher := by rw [hgreeted]
  have hflush : greeted.batcher.flush.1
      = .error (.codec (.blockTooLong second.length maxLengthField)) := by
    rw [houtbox] at hqueue
    have hqueue : greeted.batcher.queue = [greetAnnounce] ++ second :: [] := by
      rw [hbatcher, hqueue]
      rfl
    exact Batcher.flush_eq_error hqueue (by simp [hqueue]) (by decide) (by rw [hsecond]; decide)
  have hlast : vastGreeter.live (blockGreetings data)
      = { greeted with batcher := .new greeted.batcher.maxFrameBytes } :=
    Session.flush_lost hflush
  rw [hlast]
  refine ⟨?_, rfl, ?_, ?_⟩
  · rw [hgreeted]
    exact hframes
  · rw [hgreeted]
    simp only [houtbox, hstats]
    rfl
  · have hdrained : greeted.conn.outbox = [] := by
      rw [hgreeted]
      rfl
    show (_ ++ (((greetBlock data).connected started).outbox ++ (greeted.conn.outbox ++ []))).length
      = 2
    rw [hconnected, houtbox, hdrained]
    rfl

/-- The longest block that can be written. -/
def vastBlock : Bytes := List.replicate 4294967295 0

/-- So the peer misses both, although the transport accepts every frame. -/
theorem vastGreetings_noticed :
    SessionConfig.vast.validate = .ok () ∧ Transport.Accepts FrameList ∧
      (∀ call ∈ blockGreetings vastBlock, call.WritesOn) ∧
      ¬ ∃ frames, (vastGreeter.live (blockGreetings vastBlock)).transport.frames = [] ++ frames ∧
        (vastGreeter.live (blockGreetings vastBlock)).Unnoticed frames
          ((vastGreeter.outgoing (blockGreetings vastBlock)).map (·.bytes)) := by
  have hcalls : ∀ call ∈ blockGreetings vastBlock, call.WritesOn := by
    simp only [blockGreetings, greetBlock, List.forall_mem_cons, SessionCall.WritesOn]
    exact ⟨trivial, Payload.block_writesOn vastBlock, trivial, List.forall_mem_nil _⟩
  refine ⟨rfl, FrameList.accepts, hcalls, ?_⟩
  rintro ⟨frames, hframes, hunnoticed⟩
  have hvast : vastBlock.length = 4294967295 := List.length_replicate
  obtain ⟨hwritten, hqueue, -, hcount⟩ := blockGreetings_lost hvast
  obtain rfl : frames = [[0, 0, 0, 2, 128, 128, 64]] := hframes.symm.trans hwritten
  have hadvert : Session.messagesOf [0, 0, 0, 2, 128, 128, 64] = [] := by decide +kernel
  have hwhole := congrArg List.length hunnoticed.whole
  simp [hqueue, hadvert, hcount] at hwhole

end PathWire
