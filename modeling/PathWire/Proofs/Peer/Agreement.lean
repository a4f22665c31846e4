/-
Two peers agree on what every id stands for.

Each side sends what it likes and when it likes, and whatever it has queued comes to the other
side in order, at any later time.  Whatever the two do and in whatever order, both directions of
the link stay `Channel`s: an action of a side lengthens its own, a delivery shortens it, and
neither touches the other direction.
-/
import PathWire.Proofs.Peer.Action
import PathWire.Proofs.Peer.Channel
import PathWire.Scenario.Declare

namespace PathWire

variable {A : Application}

/-! ### Two sides -/

/-- The two ends of a link. -/
inductive Side where
  | left
  | right
  deriving DecidableEq, Repr

def Side.other : Side → Side
  | left => right
  | right => left

theorem Side.other_other (side : Side) : side.other.other = side := by
  cases side <;> rfl

theorem Side.other_ne (side : Side) : side.other ≠ side := by
  cases side <;> decide

/-- One side, and what has become of the messages it queued. -/
structure Party (A : Application) where
  conn : Connection A
  /-- Every message queued so far, oldest first, with the route it was sent on. -/
  posted : List Posted
  /-- Messages that have left the queue and are under way. -/
  inFlight : List Outbound
  /-- The number of messages that have come through. -/
  delivered : Nat

/-- Two peers with a link between them. -/
abbrev Net (A : Application) := Side → Party A

/-- A step of the two peers. -/
inductive Move (A : Application) : Type 1
  /-- A side does something on its own. -/
  | act (side : Side) (action : Action A)
  /-- A side's queue is drained onto the link. -/
  | drain (side : Side)
  /-- The oldest message that is under way from a side comes to the other. -/
  | deliver (side : Side) (env : A.Env)

/-- What the application writes in a step, it writes behind what is there. -/
def Move.WritesOn : Move A → Prop
  | act _ action => action.WritesOn
  | drain _ | deliver _ _ => True

namespace Party

/-- The party of a connection on which nothing has happened. -/
def start (conn : Connection A) : Party A := ⟨conn, [], [], 0⟩

def act (party : Party A) (action : Action A) : Party A :=
  let conn := action.perform party.conn
  { party with
    conn
    posted := party.posted ++ party.conn.posts conn (action.route party.conn) }

def drain (party : Party A) : Party A :=
  let (messages, conn) := party.conn.drain
  { party with conn, inFlight := party.inFlight ++ messages }

/-- The party after its oldest message has come through. -/
def deliver (party : Party A) : Party A :=
  { party with inFlight := party.inFlight.tail, delivered := party.delivered + 1 }

/-- The party after a message came to it. -/
def receive (party : Party A) (env : A.Env) (message : Bytes) : Party A :=
  { party with conn := (party.conn.receive env message).conn }

end Party

namespace Net

/-- Two fresh connections on the same tree. -/
def start (tree : Tree A) (label : Side → String) (attachment : Side → Option (Value A)) : Net A :=
  fun side => .start (.new tree (label side) (attachment side))

def move (net : Net A) : Move A → Net A
  | .act side action => Function.update net side ((net side).act action)
  | .drain side => Function.update net side (net side).drain
  | .deliver side env =>
    match (net side).inFlight.head? with
    | none => net
    | some message =>
      Function.update (Function.update net side (net side).deliver) side.other
        ((net side.other).receive env message.bytes)

def run (net : Net A) (moves : List (Move A)) : Net A := moves.foldl move net

/-- Both sides can announce the paths that have ids. -/
def Announceable (net : Net A) : Prop := ∀ side, (net side).conn.ids.Announceable

end Net

/-! ### Both directions -/

/-- A direction of the link between two parties. -/
def Link (tree : Tree A) (sender receiver : Party A) : Prop :=
  Channel tree sender.conn.ids (sender.inFlight ++ sender.conn.outbox) sender.posted
    sender.delivered receiver.conn.ids

/-- The party's connection is one of the tree. -/
structure Party.On (tree : Tree A) (party : Party A) : Prop where
  same : party.conn.tree = tree
  limit : party.conn.ids.maxId = tree.revision.maxIncomingId.toNat
  passable : ∀ {path : Path} {id : Nat}, party.conn.ids.outgoing? path = some id →
    tree.Passable path

section Steps

variable {tree : Tree A} {party peer : Party A}

theorem Party.On.field (h : party.On tree) : party.conn.ids.maxId < 2 ^ 32 := by
  rw [h.limit]
  exact tree.revision.maxIncomingId.toNat_lt

/-- Where no path of the tree is too deep for an announce, none with an id is. -/
theorem Party.On.announceable (h : party.On tree) (hdepth : tree.revision.maxPathDepth < 2 ^ 32) :
    party.conn.ids.Announceable :=
  fun _ _ hid => Nat.lt_of_le_of_lt (h.passable hid).depth hdepth

theorem Party.On.act (h : party.On tree) (hshaped : tree.Shaped) (hwrites : tree.WritesOn)
    {action : Action A} (haction : action.WritesOn) : (party.act action).On tree := by
  obtain ⟨htree, hlimit, hpassable⟩ := h
  subst htree
  obtain ⟨htree, hqueues⟩ := action.queues hshaped hwrites haction
  refine ⟨htree, hqueues.frame.2.trans hlimit, fun hid => ?_⟩
  rcases Channel.introduced_fresh hqueues hid with hid | ⟨first, hmem, rfl, -⟩
  · exact hpassable hid
  · exact (Channel.filed_fresh hqueues first hmem).passable

/-- Paths keep their ids when their side acts. -/
theorem Party.On.act_kept (h : party.On tree) (hshaped : tree.Shaped) (hwrites : tree.WritesOn)
    {action : Action A} (haction : action.WritesOn) {path : Path} {id : Nat}
    (hid : party.conn.ids.outgoing? path = some id) :
    (party.act action).conn.ids.outgoing? path = some id := by
  obtain ⟨htree, -, -⟩ := h
  subst htree
  exact Channel.outgoing?_kept (action.queues hshaped hwrites haction).2 hid

/-- What else happens to a party does not matter. -/
theorem Party.On.rebind {later : Party A} (h : party.On tree)
    (htree : later.conn.tree = party.conn.tree) {incoming : Array (Option ResolvedPath)}
    (hids : later.conn.ids = { party.conn.ids with incoming }) : later.On tree := by
  refine ⟨htree.trans h.same, ?_, ?_⟩ <;> rw [hids]
  · exact h.limit
  · exact h.passable

theorem Party.On.receive (h : party.On tree) (env : A.Env) (message : Bytes) :
    (party.receive env message).On tree := by
  obtain ⟨incoming, caches, hconn⟩ := party.conn.receive_frame env message
  exact h.rebind (congrArg (·.tree) hconn) (congrArg (·.ids) hconn)

/-- An action goes on with the direction of the side that acts. -/
theorem Link.act (h : Link tree party peer) (hparty : party.On tree) (hshaped : tree.Shaped)
    (hwrites : tree.WritesOn) {action : Action A} (haction : action.WritesOn) :
    Link tree (party.act action) peer := by
  obtain ⟨htree, -, -⟩ := hparty
  subst htree
  obtain ⟨-, hqueues⟩ := action.queues hshaped hwrites haction
  exact h.queue hqueues

/-- An action leaves the direction towards the side that acts alone. -/
theorem Link.act_peer (h : Link tree peer party) (hparty : party.On tree) (hshaped : tree.Shaped)
    (hwrites : tree.WritesOn) {action : Action A} (haction : action.WritesOn) :
    Link tree peer (party.act action) := by
  obtain ⟨htree, -, -⟩ := hparty
  subst htree
  obtain ⟨-, hqueues⟩ := action.queues hshaped hwrites haction
  exact h.of_bound hqueues.frame.1

theorem Link.drain (h : Link tree party peer) : Link tree party.drain peer := by
  have hsame : (party.inFlight ++ party.conn.outbox) ++ [] = party.inFlight ++ party.conn.outbox :=
    List.append_nil _
  unfold Link at h
  rw [← hsame] at h
  exact h

/-- A delivery goes on with the direction of the message. -/
theorem Link.deliver (h : Link tree party peer) (hparty : party.On tree) (hpeer : peer.On tree)
    (hshaped : tree.Shaped) (hpaths : party.conn.ids.Announceable) {message : Outbound}
    (hhead : party.inFlight.head? = some message) (env : A.Env) :
    Link tree party.deliver (peer.receive env message.bytes) := by
  obtain ⟨rest, hrest⟩ := List.head?_eq_some_iff.mp hhead
  have hpending : party.inFlight ++ party.conn.outbox
      = message :: (party.deliver.inFlight ++ party.conn.outbox) := by
    simp [Party.deliver, hrest]
  exact Channel.deliver h hpending hshaped hpaths hparty.field (hpeer.limit.trans hparty.limit.symm)
    hpeer.same rfl env

/-- A delivery leaves the other direction alone. -/
theorem Link.receive (h : Link tree peer party) (env : A.Env) (message : Bytes) :
    Link tree (peer.receive env message) party.deliver := by
  obtain ⟨incoming, caches, hconn⟩ := peer.conn.receive_frame env message
  unfold Link Party.receive
  rw [hconn]
  exact h.rebind incoming

end Steps

namespace Net

/-! Whatever the peers do, a path that has got an id keeps it. -/

/-- In a step a side acts, or its paths and their ids stay what they are. -/
theorem move_side (net : Net A) (step : Move A) (side : Side) :
    (∃ action, step = .act side action ∧ net.move step side = (net side).act action) ∨
      ((net.move step side).conn.tree = (net side).conn.tree ∧
        ∃ incoming, (net.move step side).conn.ids = { (net side).conn.ids with incoming }) := by
  have hother : ∀ {actor : Side} {party : Party A}, side ≠ actor →
      Function.update net actor party side = net side := fun hne => Function.update_of_ne hne _ net
  cases step with
  | act actor action =>
      by_cases hself : side = actor
      · subst hself
        exact .inl ⟨action, rfl, Function.update_self side _ net⟩
      · rw [Net.move, hother hself]
        exact .inr ⟨rfl, _, rfl⟩
  | drain actor =>
      by_cases hself : side = actor
      · subst hself
        rw [Net.move, Function.update_self]
        exact .inr ⟨rfl, _, rfl⟩
      · rw [Net.move, hother hself]
        exact .inr ⟨rfl, _, rfl⟩
  | deliver actor env =>
      cases hhead : (net actor).inFlight.head? with
      | none =>
          have hsame : net.move (.deliver actor env) = net := by simp only [Net.move, hhead]
          rw [hsame]
          exact .inr ⟨rfl, _, rfl⟩
      | some message =>
          simp only [Net.move, hhead]
          by_cases hpeer : side = actor.other
          · subst hpeer
            obtain ⟨incoming, caches, hconn⟩ :=
              (net actor.other).conn.receive_frame env message.bytes
            rw [Function.update_self, Party.receive, hconn]
            exact .inr ⟨rfl, incoming, rfl⟩
          · rw [Function.update_of_ne hpeer]
            by_cases hself : side = actor
            · subst hself
              rw [Function.update_self]
              exact .inr ⟨rfl, _, rfl⟩
            · rw [hother hself]
              exact .inr ⟨rfl, _, rfl⟩

/-- Two peers on the tree, some time after an earlier state. -/
structure Follows (tree : Tree A) (earlier net : Net A) : Prop where
  on : ∀ side, (net side).On tree
  kept : ∀ {side : Side} {path : Path} {id : Nat},
    (earlier side).conn.ids.outgoing? path = some id →
      (net side).conn.ids.outgoing? path = some id

namespace Follows

variable {tree : Tree A} {earlier net : Net A}

theorem move (h : Follows tree earlier net) (hshaped : tree.Shaped) (hwrites : tree.WritesOn)
    {step : Move A} (hstep : step.WritesOn) : Follows tree earlier (net.move step) := by
  constructor
  · intro side
    rcases net.move_side step side with ⟨action, rfl, hmove⟩ | ⟨htree, incoming, hids⟩
    · rw [hmove]
      exact (h.on side).act hshaped hwrites hstep
    · exact (h.on side).rebind htree hids
  · intro side path id hid
    rcases net.move_side step side with ⟨action, rfl, hmove⟩ | ⟨-, incoming, hids⟩
    · rw [hmove]
      exact (h.on side).act_kept hshaped hwrites hstep (h.kept hid)
    · rw [hids]
      exact h.kept hid

theorem run (hon : ∀ side, (net side).On tree) (hshaped : tree.Shaped) (hwrites : tree.WritesOn)
    (moves : List (Move A)) (hmoves : ∀ step ∈ moves, step.WritesOn) :
    Follows tree net (net.run moves) :=
  moves.foldlRecOn Net.move ⟨hon, fun hid => hid⟩
    fun _ h step hmem => h.move hshaped hwrites (hmoves step hmem)

/-- Paths that can be announced later can be announced now. -/
theorem announceable (h : Follows tree earlier net) (hpaths : net.Announceable) :
    earlier.Announceable :=
  fun side path id hid => hpaths side path id (h.kept hid)

end Follows

theorem start_on (tree : Tree A) (label : Side → String) (attachment : Side → Option (Value A))
    (side : Side) : (start tree label attachment side).On tree :=
  ⟨rfl, rfl, nofun⟩

/-- Where no path of the tree is too deep for an announce, the peers can announce all they use. -/
theorem announceable_of_depth {tree : Tree A} (hshaped : tree.Shaped) (hwrites : tree.WritesOn)
    (hdepth : tree.revision.maxPathDepth < 2 ^ 32) (label : Side → String)
    (attachment : Side → Option (Value A)) (moves : List (Move A))
    (hmoves : ∀ step ∈ moves, step.WritesOn) :
    ((start tree label attachment).run moves).Announceable := by
  have hfollows := Follows.run (start_on tree label attachment) hshaped hwrites moves hmoves
  exact fun side => (hfollows.on side).announceable hdepth

/-! Both directions stay intact. -/

/-- The invariant of the two peers. -/
structure Sound (tree : Tree A) (net : Net A) : Prop where
  on : ∀ side, (net side).On tree
  link : ∀ side, Link tree (net side) (net side.other)

theorem sound_start (tree : Tree A) (label : Side → String)
    (attachment : Side → Option (Value A)) : (start tree label attachment).Sound tree where
  on := start_on tree label attachment
  link _ := Channel.start tree _

/-- The invariant may be read from either side. -/
theorem sound_of_side {tree : Tree A} {net : Net A} (side : Side) (hself : (net side).On tree)
    (hpeer : (net side.other).On tree) (hout : Link tree (net side) (net side.other))
    (hback : Link tree (net side.other) (net side)) : net.Sound tree := by
  cases side with
  | left => exact ⟨fun | .left => hself | .right => hpeer, fun | .left => hout | .right => hback⟩
  | right => exact ⟨fun | .left => hpeer | .right => hself, fun | .left => hback | .right => hout⟩

namespace Sound

variable {tree : Tree A} {net : Net A}

/-- The direction towards a side. -/
theorem back (h : net.Sound tree) (side : Side) : Link tree (net side.other) (net side) := by
  have hlink := h.link side.other
  rwa [Side.other_other] at hlink

theorem act (h : net.Sound tree) (hshaped : tree.Shaped) (hwrites : tree.WritesOn) (side : Side)
    {action : Action A} (haction : action.WritesOn) : (net.move (.act side action)).Sound tree := by
  have hself : net.move (.act side action) side = (net side).act action :=
    Function.update_self side _ net
  have hpeer : net.move (.act side action) side.other = net side.other :=
    Function.update_of_ne side.other_ne _ net
  apply sound_of_side side
  · rw [hself]
    exact (h.on side).act hshaped hwrites haction
  · rw [hpeer]
    exact h.on side.other
  · rw [hself, hpeer]
    exact (h.link side).act (h.on side) hshaped hwrites haction
  · rw [hself, hpeer]
    exact (h.back side).act_peer (h.on side) hshaped hwrites haction

theorem drain (h : net.Sound tree) (side : Side) : (net.move (.drain side)).Sound tree := by
  have hself : net.move (.drain side) side = (net side).drain :=
    Function.update_self side _ net
  have hpeer : net.move (.drain side) side.other = net side.other :=
    Function.update_of_ne side.other_ne _ net
  apply sound_of_side side
  · rw [hself]
    exact (h.on side).rebind rfl rfl
  · rw [hpeer]
    exact h.on side.other
  · rw [hself, hpeer]
    exact (h.link side).drain
  · rw [hself, hpeer]
    exact h.back side

theorem deliver (h : net.Sound tree) (hshaped : tree.Shaped) (hpaths : net.Announceable)
    (side : Side) (env : A.Env) :
    (net.move (.deliver side env)).Sound tree := by
  cases hhead : (net side).inFlight.head? with
  | none =>
      have hsame : net.move (.deliver side env) = net := by
        simp only [Net.move, hhead]
      rwa [hsame]
  | some message =>
      have hself : net.move (.deliver side env) side = (net side).deliver := by
        simp only [Net.move, hhead, Function.update_of_ne side.other_ne.symm,
          Function.update_self]
      have hpeer : net.move (.deliver side env) side.other
          = (net side.other).receive env message.bytes := by
        simp only [Net.move, hhead, Function.update_self]
      apply sound_of_side side
      · rw [hself]
        exact (h.on side).rebind rfl rfl
      · rw [hpeer]
        exact (h.on side.other).receive env message.bytes
      · rw [hself, hpeer]
        exact (h.link side).deliver (h.on side) (h.on side.other) hshaped (hpaths side) hhead
          env
      · rw [hself, hpeer]
        exact (h.back side).receive env message.bytes

/-- **Whatever the peers do, both directions stay intact.** -/
theorem move (h : net.Sound tree) (hshaped : tree.Shaped) (hwrites : tree.WritesOn)
    (hpaths : net.Announceable) {step : Move A} (hstep : step.WritesOn) :
    (net.move step).Sound tree := by
  cases step with
  | act side action => exact h.act hshaped hwrites side hstep
  | drain side => exact h.drain side
  | deliver side env => exact h.deliver hshaped hpaths side env

/-- The invariant after any number of steps. -/
theorem run (hshaped : tree.Shaped) (hwrites : tree.WritesOn) (moves : List (Move A)) :
    ∀ {net : Net A}, net.Sound tree → (∀ step ∈ moves, step.WritesOn) →
      (net.run moves).Announceable → (net.run moves).Sound tree := by
  induction moves with
  | nil => exact fun h _ _ => h
  | cons step rest ih =>
      intro net h hmoves hpaths
      have hnow : net.Announceable :=
        (Follows.run h.on hshaped hwrites (step :: rest) hmoves).announceable hpaths
      obtain ⟨hstep, hrest⟩ := List.forall_mem_cons.mp hmoves
      exact ih (h.move hshaped hwrites hnow hstep) hrest hpaths

end Sound

end Net

/-! ### What it means for the ids -/

/-- What is promised of the ids of one direction, at any moment. -/
structure Agreement (tree : Tree A) (sender receiver : Party A) : Prop where
  /-- Messages come through once each and in order; all others are under way or queued. -/
  ordered : (sender.posted.drop sender.delivered).map (·.bytes)
    = (sender.inFlight ++ sender.conn.outbox).map (·.bytes)
  /-- The receiver has bound the ids of the announces that have come through and no other, each to
  the one path that has this id at the sender, with the carriers that the sender found. -/
  bound : ∀ id resolved, receiver.conn.ids.bound? id = some resolved ↔
    ∃ first ∈ sender.posted.take sender.delivered,
      Connection.announce tree id first.path = .ok first.bytes ∧
      (∀ path, sender.conn.ids.outgoing? path = some id ↔ path = first.path) ∧
      first.resolved tree = resolved
  /-- The next message to come through is an announce and is accepted, or its id is found and
  stands for the path that it was sent on. -/
  arrives : ∀ message, sender.inFlight.head? = some message → ∀ env, ∃ next id,
    sender.posted[sender.delivered]? = some next ∧ next.bytes = message.bytes ∧
      sender.conn.ids.outgoing? next.path = some id ∧
      (Connection.announce tree id next.path = .ok message.bytes ∧
          (receiver.conn.receive env message.bytes).outcome
            = .ok (.registered id (tree.dotted next.path)) ∨
        messageTag? message.bytes = some id ∧
          receiver.conn.ids.lookup id = .ok (next.resolved tree))

theorem Net.Sound.agreement {tree : Tree A} {net : Net A} (h : net.Sound tree)
    (hshaped : tree.Shaped) (hpaths : net.Announceable) (side : Side) :
    Agreement tree (net side) (net side.other) := by
  have hchannel : Channel tree _ _ _ _ _ := h.link side
  have hsame : (net side.other).conn.ids.maxId = (net side).conn.ids.maxId :=
    (h.on side.other).limit.trans (h.on side).limit.symm
  have hfield := (h.on side).field
  constructor
  case ordered => exact hchannel.pending
  case bound =>
    intro id resolved
    rw [hchannel.bound]
    constructor
    · rintro ⟨first, hmem, hannounce, hid, hresolved⟩
      rcases hchannel.kind hfield (List.mem_of_mem_take hmem) with
        ⟨known, hknown, -, ⟨-, hbytes⟩ | ⟨hordinary, -⟩⟩
      case inr => exact absurd hannounce hordinary
      obtain rfl : known = id := Option.some.inj (hknown.symm.trans hid)
      refine ⟨first, hmem, hbytes, fun path => ⟨fun hpath => ?_, ?_⟩, hresolved⟩
      · exact hchannel.numbered.apart hpath hid
      · rintro rfl
        exact hid
    · rintro ⟨first, hmem, hbytes, hid, hresolved⟩
      exact ⟨first, hmem, Connection.announce_tag hbytes, (hid first.path).mpr rfl, hresolved⟩
  case arrives =>
    intro message hhead env
    obtain ⟨rest, hrest⟩ := List.head?_eq_some_iff.mp hhead
    have hpending : (net side).inFlight ++ (net side).conn.outbox
        = message :: (rest ++ (net side).conn.outbox) := by rw [hrest, List.cons_append]
    obtain ⟨next, hnext, hbytes, -⟩ := hchannel.next hpending
    rw [← hbytes]
    rcases hchannel.kind hfield (List.mem_of_getElem? hnext) with
      ⟨id, hid, -, ⟨hannounce, hannounced⟩ | ⟨hordinary, -⟩⟩
    · obtain ⟨known, bound, hknown, hreceive, -⟩ := hchannel.accepts_announce hshaped (hpaths side)
        hfield hsame hnext hannounce (h.on side.other).same rfl
      obtain rfl : known = id := Option.some.inj (hknown.symm.trans hid)
      exact ⟨next, known, hnext, rfl, hid, .inl ⟨hannounced, by rw [hreceive]⟩⟩
    · obtain ⟨known, hknown, htag, hlookup⟩ := hchannel.finds_path hfield hsame hnext hordinary
      exact ⟨next, known, hnext, rfl, hknown, .inr ⟨htag, hlookup⟩⟩

/-- **Two peers agree on the ids**, whatever they do in whatever order.  An announce states the
number of its path's nodes in a field of 32 bits, so no path that got an id may have more. -/
theorem agreement_of_run {revision : Revision}
    {allowed : List (Handle A) → BuilderCall A → Prop} {builder : TreeBuilder A}
    {handles : List (Handle A)} (hbuilt : Built revision allowed builder handles)
    (hwrites : builder.build.WritesOn) (label : Side → String)
    (attachment : Side → Option (Value A)) (moves : List (Move A))
    (hmoves : ∀ step ∈ moves, step.WritesOn)
    (hpaths : ((Net.start builder.build label attachment).run moves).Announceable) (side : Side) :
    Agreement builder.build ((Net.start builder.build label attachment).run moves side)
      ((Net.start builder.build label attachment).run moves side.other) := by
  have hstart := Net.sound_start builder.build label attachment
  have hsound := hstart.run hbuilt.shaped hwrites moves hmoves hpaths
  exact hsound.agreement hbuilt.shaped hpaths side

/-! A tree with a greeting at a numbered seat. -/

/-- A seat is one byte on the wire. -/
def seatKey : ContextKey Scenario.app .unit Scenario.valType :=
  Scenario.KeySpec.key ⟨.field .u8, some 1, none⟩ .unit

/-- The declarations of the tree. -/
def declareSeat : BuilderCall Scenario.app := .key .root "seat" seatKey

def declareGreet : BuilderCall Scenario.app :=
  .signal (⟨⟨1⟩⟩ : Parent Scenario.valType) "greet" fun _ _ _ => pure ()

def seatBuilder : TreeBuilder Scenario.app :=
  match (declareSeat.run >>= fun _ => declareGreet.run) (.new .zero) with
  | .ok _ builder | .error _ builder => builder

theorem seatBuilder_built : Built .zero (fun _ _ => True) seatBuilder
    [.parent .unit .root, .parent Scenario.valType ⟨1⟩, .endpoint Scenario.valType ⟨2⟩] := by
  obtain ⟨between, hseat, hgreet⟩ : ∃ between,
      declareSeat.run (.new .zero) = .ok [.parent Scenario.valType ⟨1⟩] between ∧
      declareGreet.run between = .ok [.endpoint Scenario.valType ⟨2⟩] seatBuilder :=
    ⟨_, rfl, rfl⟩
  exact .answered declareGreet (.answered declareSeat .new trivial hseat) trivial hgreet

theorem seatKey_writesOn : (Carrier.key seatKey).WritesOn := by
  intro env value enc after h
  obtain ⟨chain, -, h⟩ := Result.of_bind_ok h
  unfold seatKey Scenario.KeySpec.key Scenario.KeySpec.write at h
  simp only at h
  cases hatom : List.getLast? chain with
  | none => simp [hatom] at h
  | some atom =>
      simp only [hatom] at h
      cases hnumber : atom.below? (Bits.bound 8) with
      | none => simp [Scenario.writeOf?, hnumber] at h
      | some number =>
          simp only [Scenario.writeOf?, hnumber, Option.map_some] at h
          have hwrite : enc.write (.u8 (UInt8.ofNat number)) = .ok after :=
            Connection.liftCodec_ok h
          exact .of_write hwrite

theorem seatTree_writesOn : seatBuilder.build.WritesOn := by
  intro index node carrier hnode hcarrier
  obtain ⟨position⟩ := index
  rcases position with _ | _ | _ | position
  · cases hnode
    cases hcarrier
  · cases hnode
    cases hcarrier
    exact seatKey_writesOn
  · cases hnode
    cases hcarrier
  · cases hnode

def greeting (seat : Int64) : Action Scenario.app :=
  .signal ({} : Scenario.Names) (⟨⟨2⟩⟩ : EndpointRef Scenario.valType) [.int seat]

/-- Each side greets twice, and most of it comes through. -/
def greetings : List (Move Scenario.app) :=
  [.act .left (greeting 7), .drain .left, .act .right (greeting 8),
    .deliver .left ({} : Scenario.Names), .deliver .left ({} : Scenario.Names), .drain .right,
    .act .left (greeting 9), .deliver .right ({} : Scenario.Names)]

def greeted : Net Scenario.app :=
  (Net.start seatBuilder.build (fun _ => "peer") fun _ => none).run greetings

/-- The right side knows where the left one greets. -/
theorem greeted_agreement :
    Agreement seatBuilder.build (greeted .left) (greeted .right) ∧
      ((greeted .right).conn.ids.bound? 3).map (·.dotted) = some "seat.greet" := by
  have hmoves : ∀ step ∈ greetings, step.WritesOn := by
    simp [greetings, greeting, Move.WritesOn, Action.WritesOn]
  have hpaths : greeted.Announceable := Net.announceable_of_depth seatBuilder_built.shaped
    seatTree_writesOn (by decide) (fun _ => "peer") (fun _ => none) greetings hmoves
  refine ⟨?_, by decide +kernel⟩
  exact agreement_of_run seatBuilder_built seatTree_writesOn (fun _ => "peer") (fun _ => none)
    greetings hmoves hpaths .left

end PathWire
