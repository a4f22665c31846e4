/-
What is sent is what is handled.

Letters are sent one after the other and their messages come through in order, whenever that is.
Among them the peer finds announces, which no callback sees, and then every letter: it runs the
endpoint's decoder once for each, on what was sent.
-/
import PathWire.Proofs.Peer.Channel
import PathWire.Proofs.Peer.Letter

namespace PathWire

variable {A : Application}

/-! ### Sending and receiving -/

/-- Letters sent one after the other. -/
inductive Sends : Connection A → List (Letter A) → Connection A → Prop
  | none {conn : Connection A} : Sends conn [] conn
  | next (letter : Letter A) {letters : List (Letter A)} {last : Connection A}
      (hrest : Sends letter.after letters last) : Sends letter.before (letter :: letters) last

/-- Messages come to a peer, each one an announce that is accepted or the next letter. -/
inductive Receives : Connection A → List (Letter A) → List Outbound → Prop
  | done {peer : Connection A} : Receives peer [] []
  | announce {peer : Connection A} {message : Outbound} {letters : List (Letter A)}
      {messages : List Outbound} (id : Nat) (path : String) (ids : IdTables)
      (haccepted : ∀ env, peer.receive env message.bytes =
        ⟨.ok (.registered id path), { peer with ids }, []⟩)
      (hrest : Receives { peer with ids } letters messages) :
      Receives peer letters (message :: messages)
  | letter {peer : Connection A} {message : Outbound} {letter : Letter A}
      {letters : List (Letter A)} {messages : List Outbound}
      (arrival : Connection.Arrival peer letter.peerEnv message.bytes)
      (hopens : arrival.Opens letter)
      (hrest : Receives (peer.receive letter.peerEnv message.bytes).conn letters messages) :
      Receives peer (letter :: letters) (message :: messages)

/-! ### All letters

First everything is sent, then everything is received: what one side sends does not depend on when
it comes through. -/

/-- The message of a letter. -/
def Letter.posted (letter : Letter A) : Posted :=
  ⟨letter.sent.written.bytes, letter.sent.route.nodes, letter.sent.route.keys⟩

/-- What was queued for letters: announces, and each letter's message. -/
inductive Mailed (tree : Tree A) : List Posted → List (Letter A) → Prop
  | none : Mailed tree [] []
  | announce {first : Posted} {posted : List Posted} {letters : List (Letter A)}
      (hannounce : first.IsAnnounce) (hrest : Mailed tree posted letters) :
      Mailed tree (first :: posted) letters
  | letter {letter : Letter A} {posted : List Posted} {letters : List (Letter A)}
      (htree : letter.before.tree = tree)
      (htag : messageTag? letter.posted.bytes = some letter.sent.id)
      (hfield : (UInt32.ofNat letter.sent.id).toNat = letter.sent.id)
      (hordinary : letter.sent.id ≠ announceTag) (hrest : Mailed tree posted letters) :
      Mailed tree (letter.posted :: posted) (letter :: letters)

section Run

variable {builder : TreeBuilder A} {handles : List (Handle A)} {attached : Option (Value A)}

/-- One letter is queued. -/
theorem Letter.Faithful.mailed {letter : Letter A} {receiver : IdTables} {posted : List Posted}
    (hfaithful : letter.Faithful builder.build handles attached) (hshaped : builder.build.Shaped)
    (htyped : builder.Typed handles) (htree : letter.before.tree = builder.build)
    (hfield : letter.before.ids.maxId < 2 ^ 32)
    (h : Channel builder.build letter.before.ids letter.before.outbox posted 0 receiver) :
    letter.after.tree = builder.build ∧ letter.after.ids.maxId = letter.before.ids.maxId ∧ ∃ fresh,
      Channel builder.build letter.after.ids letter.after.outbox (posted ++ fresh) 0 receiver ∧
      ∀ {more letters}, Mailed builder.build more letters →
        Mailed builder.build (fresh ++ more) (letter :: letters) := by
  obtain ⟨fields, hwritten⟩ := hfaithful.payload
  obtain ⟨reads, values, hmatch⟩ := exists_matchAll (letter.sent.keyed.accepted fields)
  obtain ⟨_, _, _, htagged, -, -, -⟩ :=
    letter.sent.steps (hfaithful.readsBack hshaped htyped htree) hwritten hmatch
  have htag : messageTag? letter.sent.written.bytes
      = some (UInt32.ofNat letter.sent.id).toNat := by
    simp only [messageTag?, htagged]
  obtain ⟨hsame, hqueues⟩ := letter.sent.queues (htree ▸ hshaped) htag
  rw [htree] at hsame hqueues
  obtain ⟨hfirst, hmax⟩ := letter.sent.id_range h.numbered
  have hid : (UInt32.ofNat letter.sent.id).toNat = letter.sent.id :=
    UInt32.toNat_ofNat_of_lt' (Nat.lt_of_le_of_lt hmax hfield)
  rw [hid] at htag
  have hreserved : announceTag < firstAllocatedId := by decide
  have hstart : Channel builder.build letter.before.ids ([] ++ letter.before.outbox) posted 0
    receiver := h
  refine ⟨hsame, hqueues.frame.2, _, hstart.queue hqueues, ?_⟩
  intro more letters hmore
  have hmessage : Mailed builder.build (letter.posted :: more) (letter :: letters) :=
    .letter htree htag hid (by omega) hmore
  rcases letter.sent.posts_cases with hposts | ⟨first, hannounce, hposts⟩
  · rw [hposts]
    exact hmessage
  · rw [hposts]
    exact .announce hannounce hmessage

/-- All letters are queued. -/
theorem Sends.mailed {conn last : Connection A} {letters : List (Letter A)}
    {receiver : IdTables} (h : Sends conn letters last) (hshaped : builder.build.Shaped)
    (htyped : builder.Typed handles) :
    ∀ {posted : List Posted}, conn.tree = builder.build → conn.ids.maxId < 2 ^ 32 →
      (∀ letter ∈ letters, letter.Faithful builder.build handles attached) →
      Channel builder.build conn.ids conn.outbox posted 0 receiver →
      last.ids.maxId = conn.ids.maxId ∧ ∃ more,
        Channel builder.build last.ids last.outbox (posted ++ more) 0 receiver ∧
          Mailed builder.build more letters := by
  induction h with
  | @none conn =>
      intro posted _ _ _ hchannel
      exact ⟨rfl, [], (List.append_nil posted).symm ▸ hchannel, .none⟩
  | next letter _ ih =>
      intro posted htree hfield hfaithful hchannel
      obtain ⟨hletter, hletters⟩ := List.forall_mem_cons.mp hfaithful
      obtain ⟨hsame, hmax, fresh, hafter, hmailed⟩ :=
        hletter.mailed hshaped htyped htree hfield hchannel
      obtain ⟨hlast, more, hrest, hmore⟩ := ih hsame (hmax ▸ hfield) hletters hafter
      rw [List.append_assoc] at hrest
      exact ⟨hlast.trans hmax, fresh ++ more, hrest, hmailed hmore⟩

/-- All that was queued is received. -/
theorem Mailed.receives {ids : IdTables} {posted coming : List Posted} {letters : List (Letter A)}
    (h : Mailed builder.build coming letters) (hshaped : builder.build.Shaped)
    (htyped : builder.Typed handles) (hpaths : ids.Announceable) (hfield : ids.maxId < 2 ^ 32) :
    ∀ {peer : Connection A} {pending : List Outbound} {delivered : Nat},
      (∀ letter ∈ letters, letter.Faithful builder.build handles attached) →
      posted.drop delivered = coming →
      Channel builder.build ids pending posted delivered peer.ids → peer.tree = builder.build →
      peer.attachment = attached → peer.ids.maxId = ids.maxId → Receives peer letters pending := by
  induction h with
  | none =>
      intro peer pending delivered _ hcoming hchannel _ _ _
      have hbytes := hchannel.pending
      rw [hcoming] at hbytes
      obtain rfl := List.map_eq_nil_iff.mp hbytes.symm
      exact .done
  | announce hannounce _ ih =>
      intro peer pending delivered hfaithful hcoming hchannel hpeer hattached hmax
      obtain ⟨hnext, hrest, priority, later, hpending⟩ := hchannel.coming hcoming
      obtain ⟨id, bound, hid, hreceive, hboundMax, hbound⟩ :=
        hchannel.accepts_announce hshaped hpaths hfield hmax hnext hannounce hpeer rfl
      have hpassed := hchannel.pass_announce hpending hnext hannounce hid hbound
      rw [hpending]
      exact .announce id _ bound hreceive
        (ih hfaithful hrest hpassed hpeer hattached (hboundMax.trans hmax))
  | @letter letter _ letters htree htag hidField hordinary _ ih =>
      intro peer pending delivered hfaithful hcoming hchannel hpeer hattached hmax
      obtain ⟨hnext, hrest, priority, later, hpending⟩ := hchannel.coming hcoming
      obtain ⟨hletter, hletters⟩ := List.forall_mem_cons.mp hfaithful
      have hmessage : ¬ letter.posted.IsAnnounce :=
        fun hannounce => hordinary (Option.some.inj (htag.symm.trans hannounce))
      obtain ⟨id, -, hidTag, hlookup⟩ := hchannel.finds_path hfield hmax hnext hmessage
      obtain rfl : letter.sent.id = id := Option.some.inj (htag.symm.trans hidTag)
      obtain ⟨arrival, hopens⟩ := hletter.opens hshaped htyped htree hpeer hattached hidField
        hordinary hlookup rfl rfl rfl
      obtain ⟨incoming, caches, hafter⟩ :=
        peer.receive_frame letter.peerEnv letter.posted.bytes
      have hids : (peer.receive letter.peerEnv letter.posted.bytes).conn.ids = peer.ids :=
        Connection.receive_ids hmessage
      have hpassed := hchannel.pass_message hpending hnext hmessage
      rw [← hids] at hpassed
      rw [hpending]
      refine .letter arrival hopens (ih hletters hrest hpassed ?_ ?_ ?_)
      · rw [hafter]
        exact hpeer
      · rw [hafter]
        exact hattached
      · rw [hids]
        exact hmax

end Run

section Fresh

variable {revision : Revision} {builder : TreeBuilder A} {handles : List (Handle A)}
  {label : String} {attachment peerAttachment : Option (Value A)} {letters : List (Letter A)}
  {last : Connection A}

/-- All letters of a fresh connection are queued. -/
theorem Sends.mailed_fresh
    (hbuilt : Built revision (fun handles call => call.Honest handles) builder handles)
    (hsent : Sends (.new builder.build label attachment) letters last)
    (hfaithful : ∀ letter ∈ letters, letter.Faithful builder.build handles peerAttachment) :
    last.ids.maxId = builder.build.revision.maxIncomingId.toNat ∧ ∃ posted,
      Channel builder.build last.ids last.outbox posted 0
          (.new builder.build.revision.maxIncomingId.toNat) ∧
        Mailed builder.build posted letters :=
  hsent.mailed hbuilt.shaped hbuilt.typed rfl builder.build.revision.maxIncomingId.toNat_lt
    hfaithful (Channel.start builder.build _)

/-- Where no path of the tree is too deep for an announce, all letters' paths can be announced. -/
theorem Sends.announceable
    (hbuilt : Built revision (fun handles call => call.Honest handles) builder handles)
    (hsent : Sends (.new builder.build label attachment) letters last)
    (hfaithful : ∀ letter ∈ letters, letter.Faithful builder.build handles peerAttachment)
    (hdepth : builder.build.revision.maxPathDepth < 2 ^ 32) : last.ids.Announceable := by
  obtain ⟨-, posted, hchannel, -⟩ := hsent.mailed_fresh hbuilt hfaithful
  exact hchannel.announceable hdepth

/-- **What is sent is what is handled.**  Letters that were sent one after the other, on a fresh
connection, are received by a fresh peer with the same tree: every message is an announce that is
accepted, or the next letter as it was sent. -/
theorem letters_received
    (hbuilt : Built revision (fun handles call => call.Honest handles) builder handles)
    {peerLabel : String} (hsent : Sends (.new builder.build label attachment) letters last)
    (hfaithful : ∀ letter ∈ letters, letter.Faithful builder.build handles peerAttachment)
    (hpaths : last.ids.Announceable) :
    Receives (.new builder.build peerLabel peerAttachment) letters last.outbox := by
  obtain ⟨hlast, posted, hchannel, hmailed⟩ := hsent.mailed_fresh hbuilt hfaithful
  have hfield : last.ids.maxId < 2 ^ 32 :=
    hlast ▸ builder.build.revision.maxIncomingId.toNat_lt
  exact hmailed.receives hbuilt.shaped hbuilt.typed hpaths hfield hfaithful rfl hchannel rfl rfl
    hlast.symm

end Fresh

/-! A house with rooms of two halves each, and with lamps that hang in them. -/

/-- The application: all values are numbers, and there is nothing to look up. -/
def house : Application where
  Kind := Unit
  decideKind := inferInstance
  Carried _ := Nat
  Item := Empty
  decideItem := inferInstance
  Object item := nomatch item
  ObjectKey item := nomatch item
  decideObjectKey item := nomatch item
  Env := Unit
  Event := Nat

namespace House

/-- The type of numbers. -/
def number : ContextType house := .of ()

/-- A room is three bits on the wire. -/
def roomKey : ContextKey house .unit number where
  length := .dynamic
  parentOf _ _ := ()
  write _ room enc := liftCodec (enc.write (.bits room 3))
  read _ _ := do return some (← (Reader.bits 3).inMessage)

/-- A switch is one bit, and the lamp is reported. -/
def decodeSwitch (_ : Unit) (lamp : Nat) (_ : MessageContext house) : Callback house Unit := do
  let _ ← Callback.reading Reader.bool.inMessage
  Callback.emit lamp

/-- The half of a room that has one. -/
def halfOf? (_ : Unit) (room : Nat) : Option Nat :=
  if room % 2 = 0 then some (room / 2) else none

/-! The declarations. -/

def declareRoom : BuilderCall house := .key .root "room" roomKey

def declareHalf : BuilderCall house :=
  @BuilderCall.view house number number ⟨⟨1⟩⟩ "half" halfOf? fun _ half => Nat.mul 2 half

def declareLamp : BuilderCall house :=
  .dynamic number "lamp" (some fun _ lamp => some ⟨number, ⟨⟨4⟩, ⟨3⟩⟩, lamp⟩)

def declarePlace : BuilderCall house :=
  .link (⟨⟨2⟩⟩ : Parent number) (⟨⟨3⟩⟩ : Parent number) "place" (fun _ half => some half)

def declareSwitch : BuilderCall house := .endpoint (⟨⟨3⟩⟩ : Parent number) "switch" decodeSwitch

/-- The house under construction. -/
def builder : TreeBuilder house :=
  match (declareRoom.run >>= fun _ => declareHalf.run >>= fun _ => declareLamp.run >>= fun _ =>
    declarePlace.run >>= fun _ => declareSwitch.run) (.new .zero) with
  | .ok _ builder | .error _ builder => builder

/-- The handles that were given out. -/
def handles : List (Handle house) :=
  [.parent .unit .root, .parent number ⟨1⟩, .parent number ⟨2⟩, .parent number ⟨3⟩,
    .link number number ⟨4⟩ ⟨3⟩, .endpoint number ⟨5⟩]

/-- What the declarations answer, one after the other. -/
theorem declared : ∃ room half lamp place,
    declareRoom.run (.new .zero) = .ok [.parent number ⟨1⟩] room ∧
      declareHalf.run room = .ok [.parent number ⟨2⟩] half ∧
      declareLamp.run half = .ok [.parent number ⟨3⟩] lamp ∧
      declarePlace.run lamp = .ok [.link number number ⟨4⟩ ⟨3⟩] place ∧
      declareSwitch.run place = .ok [.endpoint number ⟨5⟩] builder :=
  ⟨_, _, _, _, rfl, rfl, rfl, rfl, rfl⟩

theorem built : Built .zero (fun handles call => call.Honest handles) builder handles := by
  obtain ⟨room, half, lamp, place, hroom, hhalf, hlamp, hplace, hswitch⟩ := declared
  have hbuilt := Built.answered declareSwitch (.answered declarePlace (.answered declareLamp
    (.answered declareHalf (.answered declareRoom (.new : Built .zero (fun handles call =>
      call.Honest handles) _ _) ?_ hroom) ?_ hhalf) ?_ hlamp) ?_ hplace) ?_ hswitch
  · exact hbuilt
  all_goals
    simp [BuilderCall.Honest, BuilderCall.uses, declareRoom, declareHalf, declareLamp,
      declarePlace, declareSwitch, Parent.root]

/-- The endpoint of the switches. -/
def switch : EndpointRef number := ⟨⟨5⟩⟩

/-- A switch is turned on or off. -/
def turn (on : Bool) : Payload house Unit := fun _ _ enc => .ok ((), enc.writeBool on)

theorem halfOf?_double (half : Nat) : halfOf? () (2 * half) = some half := by
  simp [halfOf?]

theorem roomKey_faithful (room : Nat) : roomKey.Faithful () () room := by
  intro enc after hwrite
  have hwrite : enc.write (.bits room 3) = .ok after := Connection.liftCodec_ok hwrite
  refine ⟨[.bits room 3], [.bits 3], [.bits room], ?_, ?_, ?_⟩
  · exact (Encoder.writeAll_cons_ok [] hwrite).symm
  · rw [Encoder.accepted_cons_ok [] hwrite]
    exact .cons (.bits room 3) .nil
  · intro dec rest hread
    obtain ⟨value, between, hvalue, hread⟩ := Step.of_bind_ok hread
    obtain ⟨found, behind, hfound, hvalue⟩ := Step.of_bind_ok hvalue
    cases hvalue
    cases hread
    have hread : (Reader.bits 3).inMessage dec = .ok room rest := Step.adapt_ok.mpr hfound
    exact Step.bind_ok hread

/-- All nodes of the house are faithful. -/
theorem faithfulAt (index : NodeIndex) (value : Value house) :
    Route.FaithfulAt builder.build () () none none index value := by
  constructor
  case carrier =>
    intro node carrier hnode hcarrier
    obtain ⟨position⟩ := index
    rcases position with _ | _ | _ | _ | _ | _ | position
    · cases hnode
      cases hcarrier
    · cases hnode
      cases hcarrier
      intro room _
      exact roomKey_faithful room
    · cases hnode
      cases hcarrier
      intro half _
      exact halfOf?_double half
    · cases hnode
      cases hcarrier
    · cases hnode
      cases hcarrier
      trivial
    · cases hnode
      cases hcarrier
    · cases hnode
  case link =>
    intro node resolver link linkNode carrier hnode hkind hlink hlinkNode hcarrier
    obtain ⟨position⟩ := index
    rcases position with _ | _ | _ | _ | position
    · cases hnode
      cases hkind
    · cases hnode
      cases hkind
    · cases hnode
      cases hkind
    · cases hnode
      cases hkind
      obtain ⟨picked, hpicked, hlink⟩ := Result.of_bind_ok hlink
      obtain ⟨lamp, hlamp, hpicked⟩ := Result.of_bind_ok hpicked
      cases hpicked
      cases hlink
      cases hlinkNode
      cases hcarrier
      rw [Value.as_eq.mp hlamp]
      rfl
    · rcases position with _ | _ | position
      · cases hnode
        cases hkind
      · cases hnode
        cases hkind
      · cases hnode

/-- The connection on which a switch was turned. -/
def turned (conn : Connection house) (lamp : Nat) (on : Bool) : Connection house :=
  conn.afterSend (conn.sendValue () switch.index ⟨number, lamp⟩ none .normal (turn on))

theorem letter_faithful {conn after : Connection house} {lamp : number.El} {on : Bool}
    (h : conn.sendValue () switch.index ⟨number, lamp⟩ none .normal (turn on) = .ok ((), after)) :
    (Letter.ofSend h ()).Faithful builder.build handles none where
  declared := by simp [handles, Letter.ofSend, switch]
  nodes index value _ := faithfulAt index value
  payload := by
    have hfilled := (Letter.ofSend h ()).sent.filled
    have hwritten : (Letter.ofSend h ()).sent.keyed.writeBool on
        = (Letter.ofSend h ()).sent.written := congrArg Prod.snd (Except.ok.inj hfilled)
    have hwrite : (Letter.ofSend h ()).sent.keyed.write (.bool on)
        = .ok (Letter.ofSend h ()).sent.written := congrArg Except.ok hwritten
    exact .of_write hwrite

/-- Two lamps are switched, and the other side is told so. -/
theorem switches_received : ∃ letters last,
    Sends (.new builder.build "a" none) letters last ∧ letters.length = 2 ∧
      Receives (.new builder.build "b" none) letters last.outbox := by
  have hfirst : Connection.sendValue (.new builder.build "a" none) () switch.index
      ⟨number, (3 : Nat)⟩ none .normal (turn true)
      = .ok ((), turned (.new builder.build "a" none) 3 true) := rfl
  have hsecond : Connection.sendValue (turned (.new builder.build "a" none) 3 true) () switch.index
      ⟨number, (2 : Nat)⟩ none .normal (turn false)
      = .ok ((), turned (turned (.new builder.build "a" none) 3 true) 2 false) := rfl
  have hsent : Sends (.new builder.build "a" none)
      [Letter.ofSend hfirst (), Letter.ofSend hsecond ()] _ :=
    .next (Letter.ofSend hfirst ()) (.next (Letter.ofSend hsecond ()) .none)
  have hfaithful : ∀ letter ∈ [Letter.ofSend hfirst (), Letter.ofSend hsecond ()],
      letter.Faithful builder.build handles none := by
    rintro letter hmem
    simp only [List.mem_cons, List.not_mem_nil, or_false] at hmem
    rcases hmem with rfl | rfl
    · exact letter_faithful hfirst
    · exact letter_faithful hsecond
  have hpaths := hsent.announceable built hfaithful (by decide)
  exact ⟨_, _, hsent, rfl, letters_received built hsent hfaithful hpaths⟩

end House

end PathWire
