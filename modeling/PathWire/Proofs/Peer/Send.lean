/-
What sending a message comes to.

A send that succeeds has found a route and an id for it, has written the id, the carriers and the
payload, and has queued the bytes, behind an announce if the path is new.  `Departure` keeps all
of this, as `Arrival` does on the other side.  Carriers and payloads are the application's: what
is asked of them is that they only write on.
-/
import PathWire.Peer.ObjectCache
import PathWire.Proofs.Peer.Announce

namespace PathWire

variable {A : Application} {α : Type} {conn after : Connection A} {env : A.Env}
  {endpoint : NodeIndex} {value : Value A} {chosen : Option (LinkChoice A)} {priority : Priority}
  {payload : Payload A α} {answer : α}

/-! ### Writers that only write on -/

/-- Whatever the carrier writes, it writes behind what is there. -/
def Carrier.WritesOn (carrier : Carrier A) : Prop :=
  ∀ env value enc after, carrier.write env value enc = .ok after → enc.Extends after

/-- All carriers of the tree write on. -/
def Tree.WritesOn (tree : Tree A) : Prop :=
  ∀ index node carrier, tree.node? index = some node → node.kind.carrier? = some carrier →
    carrier.WritesOn

/-- The payload is written behind what is there. -/
def Payload.WritesOn {α : Type} (payload : Payload A α) : Prop :=
  ∀ ctx caches enc answer after, payload ctx caches enc = .ok (answer, after) → enc.Extends after

/-- Objects of a cache are written behind what is there. -/
def ObjectCodec.WritesOn {item : A.Item} (codec : ObjectCodec A item) : Prop :=
  ∀ env object enc after, codec.write env object enc = .ok after → enc.Extends after

theorem Payload.nothing_writesOn : (Payload.nothing : Payload A Unit).WritesOn := by
  intro ctx caches enc answer after h
  cases h
  exact .refl enc

theorem ObjectCache.put_writesOn {item : A.Item} {cache : ObjectCache A item}
    (h : cache.codec.WritesOn) (env : A.Env) (id : Nat) (object : A.Object item) :
    (cache.put env id object).WritesOn := by
  intro ctx caches enc answer after hput
  obtain ⟨written, hwrite, hput⟩ := Result.of_bind_ok hput
  cases hput
  have hid : enc.write (.varU32 (UInt32.ofNat id)) = .ok (enc.writeVarU32 (UInt32.ofNat id)) := rfl
  exact (Encoder.Extends.of_write hid).trans (h env object _ _ hwrite)

namespace Connection

/-- The carriers of a message are written behind its id. -/
theorem writeKeys_extends {tree : Tree A} (htree : tree.WritesOn) {env : A.Env}
    (pairs : List (NodeIndex × Value A)) : ∀ {enc after : Encoder},
    writeKeys tree env pairs enc = .ok after → enc.Extends after := by
  induction pairs with
  | nil =>
      intro enc after h
      cases h
      exact .refl enc
  | cons pair rest ih =>
      intro enc after h
      obtain ⟨index, value⟩ := pair
      obtain ⟨node, hnode, h⟩ := Result.of_bind_ok h
      cases hcarrier : node.kind.carrier? with
      | none =>
          simp only [hcarrier] at h
          exact ih h
      | some carrier =>
          simp only [hcarrier] at h
          obtain ⟨between, hwrite, h⟩ := Result.of_bind_ok h
          exact (htree index node carrier (Tree.node_ok hnode) hcarrier env value enc between
            hwrite).trans (ih h)

/-! ### A send that succeeds -/

/-- What a send that succeeded has done. -/
structure Departure {α : Type} (conn : Connection A) (env : A.Env) (endpoint : NodeIndex)
    (value : Value A) (chosen : Option (LinkChoice A)) (priority : Priority)
    (payload : Payload A α) (answer : α) (after : Connection A) where
  route : Route A
  id : Nat
  keyed : Encoder
  written : Encoder
  introduced : Connection A
  addressed : conn.tree.isEndpoint endpoint = true
  resolved : Route.resolve conn.tree env endpoint value chosen = .ok route
  numbered : idFor conn.ids route.nodes = .ok id
  carried : writeKeys conn.tree env (route.keys.zip route.values)
    (Encoder.empty.writeU32 (UInt32.ofNat id)) = .ok keyed
  filled : payload (conn.writeContext id route) conn.caches keyed = .ok (answer, written)
  announced : conn.introduce id route.nodes priority = .ok introduced
  queued : after = introduced.enqueue written.bytes priority

theorem sendValue_ok
    (h : conn.sendValue env endpoint value chosen priority payload = .ok (answer, after)) :
    Nonempty (Departure conn env endpoint value chosen priority payload answer after) := by
  unfold sendValue at h
  by_cases hendpoint : conn.tree.isEndpoint endpoint = true
  · simp only [hendpoint, Bool.not_true, Bool.false_eq_true, if_false] at h
    obtain ⟨route, hroute, h⟩ := Result.of_bind_ok h
    obtain ⟨id, hid, h⟩ := Result.of_bind_ok h
    obtain ⟨keyed, hkeyed, h⟩ := Result.of_bind_ok h
    obtain ⟨⟨found, written⟩, hwritten, h⟩ := Result.of_bind_ok h
    obtain ⟨introduced, hintroduced, h⟩ := Result.of_bind_ok h
    cases h
    exact ⟨⟨route, id, keyed, written, introduced, hendpoint, hroute, hid, hkeyed, hwritten,
      hintroduced, rfl⟩⟩
  · simp [hendpoint, throw, throwThe, MonadExceptOf.throw, bind, Except.bind] at h

/-- A departure is nothing but a send that succeeds. -/
theorem Departure.sendValue_eq
    (sent : Departure conn env endpoint value chosen priority payload answer after) :
    conn.sendValue env endpoint value chosen priority payload = .ok (answer, after) := by
  obtain ⟨route, id, keyed, written, introduced, haddressed, hresolved, hid, hcarried, hfilled,
    hintroduced, rfl⟩ := sent
  unfold sendValue
  simp only [haddressed, Bool.not_true, Bool.false_eq_true, if_false]
  rw [Result.bind_ok hresolved, Result.bind_ok hid, Result.bind_ok hcarried,
    Result.bind_ok hfilled]
  exact Result.bind_ok hintroduced

/-- A path is announced if it has no id yet, and only then. -/
theorem introduce_ok {conn introduced : Connection A} {id : Nat} {path : Path}
    {priority : Priority} (h : conn.introduce id path priority = .ok introduced) :
    (∃ known, conn.ids.outgoing? path = some known ∧ introduced = conn) ∨
      ∃ bytes, conn.ids.outgoing? path = none ∧ announce conn.tree id path = .ok bytes ∧
        introduced = { conn with ids := conn.ids.commit path id }.enqueue bytes priority := by
  unfold introduce at h
  cases hknown : conn.ids.outgoing? path with
  | some known =>
      simp only [hknown] at h
      cases h
      exact .inl ⟨known, rfl, rfl⟩
  | none =>
      simp only [hknown] at h
      obtain ⟨bytes, hannounce, h⟩ := Result.of_bind_ok h
      cases h
      exact .inr ⟨bytes, rfl, hannounce, rfl⟩

end Connection

/-! ### What a side queues -/

/-- A message with the route it was sent on. -/
structure Posted where
  bytes : Bytes
  path : Path
  keys : List NodeIndex

/-- Nothing is queued, or a message on a path that has an id, or a message on a new path behind
its announce. -/
inductive Queues (tree : Tree A) (ids : IdTables) (outbox : List Outbound) :
    IdTables → List Outbound → List Posted → Prop
  | nothing : Queues tree ids outbox ids outbox []
  | message {path : Path} {keys : List NodeIndex} {id : Nat} {bytes : Bytes} {priority : Priority}
      (hpath : tree.Passable path) (hkeys : ResolvedPath.carriers tree path = .ok keys)
      (hknown : ids.outgoing? path = some id)
      (htag : messageTag? bytes = some (UInt32.ofNat id).toNat) :
      Queues tree ids outbox ids (outbox ++ [⟨bytes, priority⟩]) [⟨bytes, path, keys⟩]
  | introduced {path : Path} {keys : List NodeIndex} {id : Nat} {first bytes : Bytes}
      {priority : Priority} (hpath : tree.Passable path)
      (hkeys : ResolvedPath.carriers tree path = .ok keys) (hnew : ids.outgoing? path = none)
      (hid : ids.peekNext = .ok id) (hannounce : Connection.announce tree id path = .ok first)
      (htag : messageTag? bytes = some (UInt32.ofNat id).toNat) :
      Queues tree ids outbox (ids.commit path id)
        (outbox ++ [⟨first, priority⟩] ++ [⟨bytes, priority⟩])
        [⟨first, path, keys⟩, ⟨bytes, path, keys⟩]

/-- What queueing messages does to the ids: new paths get the next ids. -/
theorem Queues.frame {tree : Tree A} {ids after : IdTables} {outbox queued : List Outbound}
    {fresh : List Posted} (h : Queues tree ids outbox after queued fresh) :
    after.incoming = ids.incoming ∧ after.maxId = ids.maxId := by
  cases h with
  | nothing => exact ⟨rfl, rfl⟩
  | message _ _ _ _ => exact ⟨rfl, rfl⟩
  | introduced _ _ _ _ _ _ => exact ⟨rfl, rfl⟩

namespace Connection

/-- The messages queued between two states of a connection, with the route they were sent on. -/
def posts (before after : Connection A) (route : Except ProtocolError (Route A)) : List Posted :=
  match route with
  | .ok route =>
    (after.outbox.drop before.outbox.length).map fun out => ⟨out.bytes, route.nodes, route.keys⟩
  | .error _ => []

/-- The connection that a send leaves behind. -/
def afterSend {α : Type} (conn : Connection A) :
    Except ProtocolError (α × Connection A) → Connection A
  | .ok (_, after) => after
  | .error _ => conn

/-- The id of a message is in range. -/
theorem Departure.id_range
    (sent : Departure conn env endpoint value chosen priority payload answer after)
    (hnumbered : conn.ids.Numbered) : firstAllocatedId ≤ sent.id ∧ sent.id ≤ conn.ids.maxId := by
  have hid := sent.numbered
  unfold idFor at hid
  cases hknown : conn.ids.outgoing? sent.route.nodes with
  | some known =>
      simp only [hknown, Except.ok.injEq] at hid
      obtain ⟨hfirst, -, hmax⟩ := hnumbered.range hknown
      exact ⟨hid ▸ hfirst, hid ▸ hmax⟩
  | none =>
      simp only [hknown] at hid
      obtain ⟨hnext, hmax⟩ := IdTables.peekNext_ok hid
      exact ⟨hnext ▸ hnumbered.next, hmax⟩

/-- The bytes of a message start with its id. -/
theorem Departure.tag
    (sent : Departure conn env endpoint value chosen priority payload answer after)
    (htree : conn.tree.WritesOn) (hpayload : payload.WritesOn) :
    messageTag? sent.written.bytes = some (UInt32.ofNat sent.id).toNat := by
  have hextends : (Encoder.empty.writeU32 (UInt32.ofNat sent.id)).Extends sent.written :=
    (writeKeys_extends htree _ sent.carried).trans (hpayload _ _ _ _ _ sent.filled)
  obtain ⟨dec, hread⟩ := hextends.read_start (mirrors_u32 .empty (UInt32.ofNat sent.id))
  simp only [messageTag?, hread]

theorem posts_same {before after : Connection A} (route : Except ProtocolError (Route A))
    (h : after.outbox = before.outbox) : before.posts after route = [] := by
  unfold posts
  cases route with
  | ok route => simp [h]
  | error cause => rfl

theorem posts_append {conn after : Connection A} {queued : List Outbound} (route : Route A)
    (h : after.outbox = conn.outbox ++ queued) :
    conn.posts after (.ok route) =
      queued.map fun out => ⟨out.bytes, route.nodes, route.keys⟩ := by
  simp only [posts, h, List.drop_left]

/-- A send that succeeds queues its message, behind an announce if the path is new. -/
theorem Departure.posts_cases
    (sent : Departure conn env endpoint value chosen priority payload answer after) :
    conn.posts after (.ok sent.route)
        = [⟨sent.written.bytes, sent.route.nodes, sent.route.keys⟩] ∨
      ∃ first : Posted, messageTag? first.bytes = some announceTag ∧
        conn.posts after (.ok sent.route)
          = [first, ⟨sent.written.bytes, sent.route.nodes, sent.route.keys⟩] := by
  have houtbox : after.outbox = sent.introduced.outbox ++ [⟨sent.written.bytes, priority⟩] :=
    congrArg Connection.outbox sent.queued
  rcases introduce_ok sent.announced with ⟨known, -, hsame⟩ | ⟨first, -, hannounce, hsame⟩
  · rw [hsame] at houtbox
    exact .inl (posts_append sent.route houtbox)
  · rw [hsame, enqueue, List.append_assoc] at houtbox
    exact .inr ⟨⟨first, sent.route.nodes, sent.route.keys⟩, announce_tag hannounce,
      posts_append sent.route houtbox⟩

/-- What a send that succeeds queues. -/
theorem Departure.queues
    (sent : Departure conn env endpoint value chosen priority payload answer after)
    (hshaped : conn.tree.Shaped)
    (htag : messageTag? sent.written.bytes = some (UInt32.ofNat sent.id).toNat) :
    after.tree = conn.tree ∧ Queues conn.tree conn.ids conn.outbox after.ids after.outbox
      (conn.posts after (.ok sent.route)) := by
  obtain ⟨route, id, keyed, written, introduced, haddressed, hresolved, hid, hcarried, hfilled,
    hintroduced, rfl⟩ := sent
  obtain ⟨hpath, hkeys⟩ := Route.resolve_ok hshaped haddressed hresolved
  unfold idFor at hid
  rcases introduce_ok hintroduced with ⟨known, hknown, rfl⟩ | ⟨first, hnew, hannounce, rfl⟩
  · simp only [hknown, Except.ok.injEq] at hid
    subst hid
    rw [posts_append route rfl]
    exact ⟨rfl, .message hpath hkeys hknown htag⟩
  · simp only [hnew] at hid
    have houtbox : (({ conn with ids := conn.ids.commit route.nodes id }.enqueue first
        priority).enqueue written.bytes priority).outbox
        = conn.outbox ++ [⟨first, priority⟩, ⟨written.bytes, priority⟩] := by
      simp [enqueue]
    rw [posts_append route houtbox]
    exact ⟨rfl, .introduced hpath hkeys hnew hid hannounce htag⟩

/-- **What a send queues**, whether it succeeds or not. -/
theorem sendValue_queues {α : Type} {conn : Connection A} (hshaped : conn.tree.Shaped)
    (htree : conn.tree.WritesOn) (env : A.Env) (endpoint : NodeIndex) (value : Value A)
    (chosen : Option (LinkChoice A)) (priority : Priority) {payload : Payload A α}
    (hpayload : payload.WritesOn) {after : Connection A}
    (hafter : conn.afterSend (conn.sendValue env endpoint value chosen priority payload) = after) :
    after.tree = conn.tree ∧ Queues conn.tree conn.ids conn.outbox after.ids after.outbox
      (conn.posts after (Route.resolve conn.tree env endpoint value chosen)) := by
  cases hsend : conn.sendValue env endpoint value chosen priority payload with
  | error cause =>
      rw [hsend] at hafter
      subst hafter
      rw [afterSend, posts_same _ rfl]
      exact ⟨rfl, .nothing⟩
  | ok result =>
      obtain ⟨answer, found⟩ := result
      rw [hsend] at hafter
      subst hafter
      obtain ⟨sent⟩ := sendValue_ok hsend
      rw [sent.resolved]
      exact sent.queues hshaped (sent.tag htree hpayload)

end Connection

end PathWire
