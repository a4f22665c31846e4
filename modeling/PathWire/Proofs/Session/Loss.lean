/-
What is left if a transport refuses frames.

A path gets its id when its first message is queued, and keeps it whatever becomes of the announce.
If the announce was in a frame that the transport refused, later messages on the path go out with
an id that the peer has never heard of.  So a message that was accepted is found exactly if the
announce of its path was accepted before it.  A transport that accepts nothing once it has refused
a frame cuts the messages off at some point, and then nothing is missing before what was accepted.
-/
import PathWire.Proofs.Session.Batching

namespace PathWire

variable {A : Application} {T : Type}

/-! ### A receiver of some messages -/

/-- A connection that was fresh before it heard these messages and no others. -/
def Connection.HasHeard (tree : Tree A) (messages : List Posted) (conn : Connection A) : Prop :=
  ∃ label attachment arrivals, arrivals.map (·.2) = messages.map (·.bytes) ∧
    conn = ((Connection.new tree label attachment).hear arrivals).conn

/-- The announce of a message's path, with its id, is among others. -/
def Posted.IsAnnouncedIn (tree : Tree A) (message : Posted) (id : Nat) (others : List Posted) :
    Prop :=
  ∃ first ∈ others, first.path = message.path ∧
    Connection.announce tree id first.path = .ok first.bytes

section

variable {tree : Tree A} {ids : IdTables} {heard messages : List Posted} {message : Posted}

/-- A connection that hears messages has bound the announces among them. -/
theorem Caught.hear {conn : Connection A} {arrivals : List (Incoming A)}
    (h : Caught tree ids heard conn.ids) (hshaped : tree.Shaped) (hpaths : ids.Announceable)
    (hfield : ids.maxId < 2 ^ 32) (messages : List Posted) (htree : conn.tree = tree)
    (hmax : conn.ids.maxId = ids.maxId)
    (hfiled : ∀ message ∈ messages, Filed tree ids message)
    (harrivals : arrivals.map (·.2) = messages.map (·.bytes)) :
    Caught tree ids (heard ++ messages) (conn.hear arrivals).conn.ids := by
  induction messages generalizing heard conn arrivals with
  | nil =>
      rw [List.map_eq_nil_iff.mp harrivals, List.append_nil]
      exact h
  | cons message rest ih =>
      obtain ⟨hmessage, hrest⟩ := List.forall_mem_cons.mp hfiled
      obtain ⟨arrival, later, rfl, hbytes, hlater⟩ := List.map_eq_cons_iff.mp harrivals
      have hbytes : arrival.2 = message.bytes := hbytes
      have hnext := h.receive hmessage hshaped hpaths hfield hmax htree rfl arrival.1
      rw [← hbytes] at hnext
      obtain ⟨incoming, caches, hconn⟩ := conn.receive_frame arrival.1 arrival.2
      have hall := ih hnext (by rw [hconn]; exact htree) (by rw [hconn]; exact hmax) hrest hlater
      rw [List.append_assoc] at hall
      exact hall

theorem Connection.HasHeard.caught {conn : Connection A} (h : conn.HasHeard tree messages)
    (hnumbered : ids.Numbered) (hshaped : tree.Shaped) (hpaths : ids.Announceable)
    (hmax : ids.maxId = tree.revision.maxIncomingId.toNat)
    (hfiled : ∀ message ∈ messages, Filed tree ids message) :
    Caught tree ids messages conn.ids ∧ conn.tree = tree ∧ conn.ids.maxId = ids.maxId := by
  obtain ⟨label, attachment, arrivals, harrivals, rfl⟩ := h
  have hfield : ids.maxId < 2 ^ 32 := hmax ▸ tree.revision.maxIncomingId.toNat_lt
  have hstart : Caught tree ids [] (Connection.new tree label attachment).ids := .start hnumbered
  obtain ⟨incoming, caches, hconn⟩ :=
    (Connection.new tree label attachment).hear_frame arrivals
  refine ⟨?_, by rw [hconn]; rfl, by rw [hconn]; exact hmax.symm⟩
  exact hstart.hear hshaped hpaths hfield messages rfl hmax.symm hfiled harrivals

/-- An announce among filed messages is one of the id that its path has. -/
theorem Filed.isAnnounce_iff {first : Posted} (h : Filed tree ids first) (hnumbered : ids.Numbered)
    (hfield : ids.maxId < 2 ^ 32) {id : Nat} (hid : ids.outgoing? first.path = some id) :
    first.IsAnnounce ↔ Connection.announce tree id first.path = .ok first.bytes := by
  obtain ⟨known, hknown, -, hkind⟩ := h.kind hnumbered hfield
  cases hid.symm.trans hknown
  constructor
  · intro hannounce
    rcases hkind with ⟨-, hbytes⟩ | ⟨hordinary, -⟩
    · exact hbytes
    · exact absurd hannounce hordinary
  · exact Connection.announce_tag

end

namespace Session

variable [Transport T]

/-- What is promised of the messages that were posted, and of those in the frames that the transport
has taken. -/
structure Survive (T : Type) [Transport T] (tree : Tree A) (ids : IdTables) (frames : List Bytes)
    (posted taken : List Posted) : Prop where
  held : frames.flatMap messagesOf = taken.map (·.bytes)
  sublist : taken.Sublist posted
  /-- Receiving some of the frames in order is receiving the first of the messages. -/
  heard : ∀ {R : Type} (peer : Session A R) (arrivals : List (Incoming A)),
    arrivals.map (·.2) <+: frames →
      (peer.hear arrivals).Tells (peer.conn.hear (messagesIn arrivals)) ∧
        (messagesIn arrivals).map (·.2) <+: taken.map (·.bytes)
  /-- An announce is accepted. -/
  announces : ∀ {before after : List Posted} {message : Posted},
    taken = before ++ message :: after → message.IsAnnounce → ∃ id,
      ids.outgoing? message.path = some id ∧
      ∀ conn : Connection A, conn.HasHeard tree before → ∀ env,
        (conn.receive env message.bytes).outcome
          = .ok (.registered id (tree.dotted message.path))
  /-- The id of any other message is found if the announce of its path was taken before it, and is
  unknown if not. -/
  others : ∀ {before after : List Posted} {message : Posted},
    taken = before ++ message :: after → ¬ message.IsAnnounce → ∃ id,
      ids.outgoing? message.path = some id ∧ messageTag? message.bytes = some id ∧
      ∀ conn : Connection A, conn.HasHeard tree before →
        (message.IsAnnouncedIn tree id before →
          conn.ids.lookup id = .ok (message.resolved tree)) ∧
        (¬ message.IsAnnouncedIn tree id before → ∀ env,
          (conn.receive env message.bytes).outcome = .error (.unknownId id))
  /-- No announce is missing if the transport takes nothing once it has refused a frame. -/
  lasting : Transport.Lasting T → ∀ {before after : List Posted} {message : Posted} {id : Nat},
    taken = before ++ message :: after → ¬ message.IsAnnounce →
      ids.outgoing? message.path = some id → message.IsAnnouncedIn tree id before

/-- Messages that are some of those posted, or the first of them, are found among them. -/
theorem exists_taken {posted : List Posted} {messages : List Bytes}
    (hsome : messages.Sublist (posted.map (·.bytes))) {lasting : Prop}
    (hfirst : lasting → messages <+: posted.map (·.bytes)) :
    ∃ taken, taken.Sublist posted ∧ messages = taken.map (·.bytes) ∧
      (lasting → taken <+: posted) := by
  -- the same bytes may stand in several places, so the choice depends on what is known of them
  by_cases hlasting : lasting
  · obtain ⟨others, hothers⟩ := hfirst hlasting
    obtain ⟨taken, rest, rfl, htaken, -⟩ := List.map_eq_append_iff.mp hothers.symm
    exact ⟨taken, List.sublist_append_left _ _, htaken.symm, fun _ => List.prefix_append _ _⟩
  · obtain ⟨taken, hsub, htaken⟩ := List.sublist_map_iff.mp hsome
    exact ⟨taken, hsub, htaken, (absurd · hlasting)⟩

/-- What survives of the messages of one direction. -/
theorem survive {tree : Tree A} {ids receiver : IdTables} {pending : List Outbound}
    {posted taken : List Posted} {frames : List Bytes}
    (h : Channel tree ids pending posted 0 receiver) (hshaped : tree.Shaped)
    (hpaths : ids.Announceable) (hmax : ids.maxId = tree.revision.maxIncomingId.toNat)
    (hreadable : ∀ frame ∈ frames, Readable frame)
    (hheld : frames.flatMap messagesOf = taken.map (·.bytes)) (hsub : taken.Sublist posted)
    (hfirst : Transport.Lasting T → taken <+: posted) : Survive T tree ids frames posted taken := by
  have hfield : ids.maxId < 2 ^ 32 := hmax ▸ tree.revision.maxIncomingId.toNat_lt
  have hfiled : ∀ message ∈ taken, Filed tree ids message := fun message hmem =>
    h.filed message (hsub.subset hmem)
  constructor
  case held => exact hheld
  case sublist => exact hsub
  case heard =>
    intro R peer arrivals hcame
    refine ⟨hear_first hreadable peer hcame, ?_⟩
    rw [bytes_messagesIn, ← hheld]
    exact hcame.flatMap messagesOf
  case announces =>
    rintro before after message rfl hannounce
    have hmessage : Filed tree ids message := hfiled message (by simp)
    obtain ⟨id, hid, -, -⟩ := hmessage.kind h.numbered hfield
    refine ⟨id, hid, fun conn hheard env => ?_⟩
    obtain ⟨hcaught, htree, hsame⟩ := hheard.caught h.numbered hshaped hpaths hmax
      fun one hone => hfiled one (List.mem_append_left _ hone)
    obtain ⟨known, bound, hknown, hreceive, -⟩ :=
      hcaught.accepts hmessage hshaped hpaths hfield hsame hannounce htree rfl
    cases hid.symm.trans hknown
    rw [hreceive]
  case others =>
    rintro before after message rfl hordinary
    have hbefore : ∀ one ∈ before, Filed tree ids one := fun one hone =>
      hfiled one (List.mem_append_left _ hone)
    have hmessage : Filed tree ids message := hfiled message (by simp)
    obtain ⟨id, hid, -, ⟨hannounce, -⟩ | ⟨-, htag⟩⟩ := hmessage.kind h.numbered hfield
    · exact absurd hannounce hordinary
    refine ⟨id, hid, htag, fun conn hheard => ?_⟩
    obtain ⟨hcaught, htree, hsame⟩ := hheard.caught h.numbered hshaped hpaths hmax hbefore
    constructor
    · rintro ⟨first, hfirst, hpath, hannounce⟩
      exact hcaught.finds hmessage hsame hid hfirst hpath (Connection.announce_tag hannounce)
    · intro hnone env
      have hunknown : conn.ids.lookup id = .error (.unknownId id) := by
        refine hcaught.misses hsame hid fun first hfirst hpath hannounce => hnone ?_
        have hfirstId : ids.outgoing? first.path = some id := hpath ▸ hid
        exact ⟨first, hfirst, hpath,
          ((hbefore first hfirst).isAnnounce_iff h.numbered hfield hfirstId).mp hannounce⟩
      have hfirstTag := (h.numbered.field hfield hid).2.2
      rw [Connection.receive_unfound htag hfirstTag hunknown]
      rfl
  case lasting =>
    rintro hlasting before after message id rfl hordinary hid
    obtain ⟨rest, hrest⟩ := hfirst hlasting
    have hplace : posted[before.length]? = some message := by
      rw [← hrest, List.append_assoc]
      simp
    obtain ⟨first, hmem, hpath, hannounce⟩ := h.preceded hplace hordinary
    have hbefore : posted.take before.length = before := by
      rw [← hrest, List.append_assoc, List.take_left]
    rw [hbefore] at hmem
    have hfirstId : ids.outgoing? first.path = some id := hpath ▸ hid
    exact ⟨first, hmem, hpath, ((hfiled first (List.mem_append_left _ hmem)).isAnnounce_iff
      h.numbered hfield hfirstId).mp hannounce⟩

end Session

/-- **What a transport accepts is found by the peer as far as the announces were accepted too**,
whatever is called on the session and whichever frames are refused. -/
theorem messages_survive [Transport T] {revision : Revision}
    {allowed : List (Handle A) → BuilderCall A → Prop} {builder : TreeBuilder A}
    {handles : List (Handle A)} (hbuilt : Built revision allowed builder handles)
    (hwrites : builder.build.WritesOn) {accepted : T → List Bytes}
    (hrecords : Transport.Records accepted) (label : String)
    (attachment : Option (Value A)) (transport : T) (config : SessionConfig)
    (calls : List (SessionCall A)) (hcalls : ∀ call ∈ calls, call.WritesOn)
    (hpack : Batcher.Packable config.session.maxFrameBytes
      (((Session.fresh builder.build label attachment transport config).outgoing calls).map
        (·.bytes)))
    (hpaths : ((Session.fresh builder.build label attachment transport config).live
      calls).conn.ids.Announceable) :
    ∃ frames posted taken, accepted ((Session.fresh builder.build label attachment transport
        config).live calls).transport = accepted transport ++ frames ∧
      posted.map (·.bytes) = ((Session.fresh builder.build label attachment transport
        config).outgoing calls).map (·.bytes) ∧
      Session.Survive T builder.build ((Session.fresh builder.build label attachment transport
        config).live calls).conn.ids frames posted taken := by
  have hfresh := Session.traced_fresh accepted builder.build label attachment transport config
  obtain ⟨posted, frames, htraced⟩ :=
    hfresh.live rfl hbuilt.shaped hwrites hrecords calls hcalls hpack
  obtain ⟨hdrained, hsending, hpasses⟩ := htraced
  have hposted := hsending.channel.pending
  rw [List.drop_zero, hdrained, List.append_nil] at hposted
  have hbehind := (List.sublist_append_left _ _).trans hpasses.behind
  have hfirst := hpasses.first
  rw [← hposted] at hbehind hfirst
  obtain ⟨taken, hsub, hheld, hprefix⟩ := Session.exists_taken hbehind hfirst
  exact ⟨frames, posted, taken, hpasses.accepted, hposted, Session.survive hsending.channel
    hbuilt.shaped hpaths hsending.limit hpasses.readable hheld hsub hprefix⟩

/-- A channel whose other end is gone stays closed. -/
theorem FrameChannel.lasting : Transport.Lasting FrameChannel := by
  have hclosed : ∀ {channel : FrameChannel}, Transport.Broken channel →
      channel.isOpen = false := by
    intro channel hbroken
    induction hbroken with
    | @refused channel after frame cause h =>
        cases hopen : channel.isOpen <;> simp [Transport.sendRaw, hopen] at h
        rw [← h.2, hopen]
    | @later channel after frame result _ h ih =>
        simp only [Transport.sendRaw, ih, Bool.false_eq_true, if_false, Prod.mk.injEq] at h
        rw [← h.2, ih]
  intro channel hbroken frame
  refine ⟨.closed, channel, ?_⟩
  simp [Transport.sendRaw, hclosed hbroken]

/-! A transport that accepts frames again. -/

/-- A transport that refuses some frames first, and accepts all others. -/
structure LateChannel where
  refusals : Nat
  /-- Oldest first. -/
  frames : List Bytes

instance : Transport LateChannel where
  sendRaw channel frame :=
    match channel.refusals with
    | 0 => (.ok (), { channel with frames := channel.frames ++ [frame] })
    | left + 1 => (.error .closed, { channel with refusals := left })

theorem LateChannel.records : Transport.Records LateChannel.frames where
  ok := by
    rintro ⟨_ | left, frames⟩ after frame h <;> cases h
    rfl
  error := by
    rintro ⟨_ | left, frames⟩ after frame cause h <;> cases h
    rfl

def lateGreeter : Session Scenario.app LateChannel :=
  .fresh seatBuilder.build "peer" none ⟨1, []⟩ {}

/-- The first greeting is refused with the announce, and the second one is accepted. -/
def lateGreetings : List (SessionCall Scenario.app) :=
  [greetFrom 7 .urgent, greetFrom 8 .normal, .flush]

theorem lateGreetings_survive :
    (∃ frames posted taken, (lateGreeter.live lateGreetings).transport.frames = [] ++ frames ∧
      posted.map (·.bytes) = (lateGreeter.outgoing lateGreetings).map (·.bytes) ∧
      Session.Survive LateChannel seatBuilder.build (lateGreeter.live lateGreetings).conn.ids frames
        posted taken) ∧
      (lateGreeter.outgoing lateGreetings).length = 3 ∧
      (lateGreeter.live lateGreetings).transport.frames = [[0, 0, 0, 3, 8]] := by
  have hcalls : ∀ call ∈ lateGreetings, call.WritesOn := by
    simp only [lateGreetings, greetFrom, List.forall_mem_cons, SessionCall.WritesOn]
    exact ⟨Payload.nothing_writesOn, Payload.nothing_writesOn, trivial, List.forall_mem_nil _⟩
  have hpack : Batcher.Packable lateGreeter.batcher.maxFrameBytes
      ((lateGreeter.outgoing lateGreetings).map (·.bytes)) := .of_limit (by decide) _
  have hfresh : lateGreeter.Traced LateChannel.frames seatBuilder.build lateGreeter [] [] [] :=
    Session.traced_fresh LateChannel.frames seatBuilder.build "peer" none ⟨1, []⟩ {}
  obtain ⟨posted, frames, htraced⟩ := hfresh.live rfl seatBuilder_built.shaped seatTree_writesOn
    LateChannel.records lateGreetings hcalls hpack
  have hpaths := htraced.sending.channel.announceable (by decide)
  refine ⟨?_, by decide +kernel, by decide +kernel⟩
  exact messages_survive seatBuilder_built seatTree_writesOn LateChannel.records "peer" none
    ⟨1, []⟩ {} lateGreetings hcalls hpack hpaths

/-- A message is accepted without the announce of its path, and the peer does not know its id. -/
theorem late_greeting_unknown :
    ¬ (∀ (place : Nat) (message : Bytes) (id : Nat),
        ((lateGreeter.live lateGreetings).transport.frames.flatMap Session.messagesOf)[place]?
          = some message → messageTag? message = some id → id ≠ announceTag →
        ∃ first ∈ ((lateGreeter.live lateGreetings).transport.frames.flatMap
          Session.messagesOf).take place, messageTag? first = some announceTag) ∧
      ((Session.fresh seatBuilder.build "receiver" none (⟨[]⟩ : FrameList) {}).hear
        ((lateGreeter.live lateGreetings).transport.frames.map
          fun frame => (({} : Scenario.Names), frame))).report.errors
        = [.protocol (.unknownId 3)] := by
  refine ⟨fun hpreceded => ?_, by decide +kernel⟩
  obtain ⟨first, hfirst, -⟩ := hpreceded 0 [0, 0, 0, 3, 8] 3 (by decide +kernel)
    (by decide +kernel) (by decide)
  cases hfirst

end PathWire
