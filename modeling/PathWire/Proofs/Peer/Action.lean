/-
What one side does on its own.

There are four ways to queue a message, and each may fail in many places.  Seen from the ids and
from the queue they are all the same: nothing happens, or a message is queued on a path that has
an id, or one on a new path behind its announce.
-/
import PathWire.Proofs.Peer.Send

namespace PathWire

variable {A : Application}

/-- Something that a side does on its own: it sends a message, or gives an object an id. -/
inductive Action (A : Application) : Type 1
  | send {α : Type} {type : ContextType A} (env : A.Env) (endpoint : EndpointRef type)
      (value : type.El) (priority : Priority) (payload : Payload A α)
  | sendLinked {α : Type} {type child : ContextType A} (env : A.Env) (endpoint : EndpointRef type)
      (value : type.El) (link : DynamicLink child) (priority : Priority) (payload : Payload A α)
  | signal {type : ContextType A} (env : A.Env) (endpoint : EndpointRef type) (value : type.El)
  | assign {item : A.Item} (env : A.Env) (cache : ObjectCache A item) (object : A.Object item)

namespace Action

/-- The connection after an action, whether it succeeded or not. -/
def perform (conn : Connection A) : Action A → Connection A
  | send env endpoint value priority payload =>
    conn.afterSend (conn.send env endpoint value priority payload)
  | sendLinked env endpoint value link priority payload =>
    conn.afterSend (conn.sendLinked env endpoint value link priority payload)
  | signal env endpoint value => conn.afterSend (conn.signal env endpoint value)
  | assign env cache object => (cache.assign env conn object).2

/-- The route of the messages that an action queues. -/
def route (conn : Connection A) : Action A → Except ProtocolError (Route A)
  | @send _ _ type env endpoint value _ _ =>
    Route.resolve conn.tree env endpoint.index ⟨type, value⟩ none
  | @sendLinked _ _ type _ env endpoint value link _ _ =>
    Route.resolve conn.tree env endpoint.index ⟨type, value⟩ (some link.choice)
  | @signal _ type env endpoint value =>
    Route.resolve conn.tree env endpoint.index ⟨type, value⟩ none
  | @assign _ _ env cache _ => Route.resolve conn.tree env cache.endpoint.index .unit none

/-- What the application writes in an action, it writes behind what is there. -/
def WritesOn : Action A → Prop
  | send _ _ _ _ payload | sendLinked _ _ _ _ _ payload => payload.WritesOn
  | signal _ _ _ => True
  | assign _ cache _ => cache.codec.WritesOn

end Action

namespace Connection

/-- Taking an id back does not touch the messages. -/
theorem rollBack_frame {item : A.Item} (cache : ObjectCache A item) (conn : Connection A)
    (id : Nat) : ∃ caches, cache.rollBack conn id = { conn with caches } := by
  unfold ObjectCache.rollBack
  cases conn.caches.open? cache.slot item with
  | ok opened => exact ⟨_, rfl⟩
  | error cause => exact ⟨conn.caches, rfl⟩

/-- A connection of which only the caches have changed has queued nothing. -/
theorem caches_queue_nothing (conn : Connection A) (caches : CacheStore A)
    (route : Except ProtocolError (Route A)) :
    Queues conn.tree conn.ids conn.outbox conn.ids conn.outbox
      (conn.posts { conn with caches } route) := by
  have hnone : conn.posts { conn with caches } route = [] := posts_same route rfl
  rw [hnone]
  exact .nothing

/-- What giving a new object an id queues: its put, unless that fails. -/
theorem assignNew_queues {item : A.Item} {conn : Connection A} (hshaped : conn.tree.Shaped)
    (htree : conn.tree.WritesOn) (env : A.Env) (cache : ObjectCache A item)
    (hcodec : cache.codec.WritesOn) (table : CacheTable A item) (object : A.Object item)
    {after : Connection A} (hafter : (cache.assignNew env conn table object).2 = after) :
    after.tree = conn.tree ∧ Queues conn.tree conn.ids conn.outbox after.ids after.outbox
      (conn.posts after (Route.resolve conn.tree env cache.endpoint.index .unit none)) := by
  have hput := ObjectCache.put_writesOn hcodec env table.nextId object
  unfold ObjectCache.assignNew at hafter
  simp only at hafter
  generalize hcaches : conn.caches.put cache.slot (table.assign (cache.codec.keyOf object))
    = caches at hafter
  cases hsend : send { conn with caches } env cache.endpoint () .normal
    (cache.put env table.nextId object) with
  | ok result =>
      obtain ⟨⟨⟩, found⟩ := result
      simp only [hsend] at hafter
      subst hafter
      have hafter : afterSend { conn with caches } (send { conn with caches } env cache.endpoint ()
          .normal (cache.put env table.nextId object)) = found := by
        rw [hsend]
        rfl
      exact @sendValue_queues A Unit { conn with caches } hshaped htree env cache.endpoint.index
        ⟨.unit, ()⟩ none .normal _ hput found hafter
  | error cause =>
      simp only [hsend] at hafter
      obtain ⟨left, hleft⟩ := rollBack_frame cache { conn with caches } table.nextId
      rw [hleft] at hafter
      subst hafter
      exact ⟨rfl, caches_queue_nothing conn left _⟩

/-- What giving an object an id queues. -/
theorem assign_queues {item : A.Item} {conn : Connection A} (hshaped : conn.tree.Shaped)
    (htree : conn.tree.WritesOn) (env : A.Env) (cache : ObjectCache A item)
    (hcodec : cache.codec.WritesOn) (object : A.Object item) {after : Connection A}
    (hafter : (cache.assign env conn object).2 = after) :
    after.tree = conn.tree ∧ Queues conn.tree conn.ids conn.outbox after.ids after.outbox
      (conn.posts after (Route.resolve conn.tree env cache.endpoint.index .unit none)) := by
  unfold ObjectCache.assign at hafter
  cases hopen : conn.caches.open? cache.slot item with
  | error cause =>
      simp only [hopen] at hafter
      subst hafter
      exact ⟨rfl, caches_queue_nothing conn conn.caches _⟩
  | ok opened =>
      obtain ⟨table, caches⟩ := opened
      simp only [hopen] at hafter
      cases hid : table.idOf? (cache.codec.keyOf object) with
      | some id =>
          simp only [hid] at hafter
          subst hafter
          exact ⟨rfl, caches_queue_nothing conn caches _⟩
      | none =>
          simp only [hid] at hafter
          by_cases hfull : cache.maxEntries.toNat ≤ table.outgoing.length
          · rw [if_pos hfull] at hafter
            subst hafter
            exact ⟨rfl, caches_queue_nothing conn caches _⟩
          · rw [if_neg hfull] at hafter
            exact @assignNew_queues A item { conn with caches } hshaped htree env cache hcodec table
              object after hafter

end Connection

/-- **What an action queues**, whether it succeeds or not. -/
theorem Action.queues {conn : Connection A} (hshaped : conn.tree.Shaped)
    (htree : conn.tree.WritesOn) (action : Action A) (haction : action.WritesOn) :
    (action.perform conn).tree = conn.tree ∧
      Queues conn.tree conn.ids conn.outbox (action.perform conn).ids (action.perform conn).outbox
        (conn.posts (action.perform conn) (action.route conn)) := by
  cases action with
  | send env endpoint value priority payload =>
      exact Connection.sendValue_queues hshaped htree env endpoint.index _ none priority haction rfl
  | sendLinked env endpoint value link priority payload =>
      exact Connection.sendValue_queues hshaped htree env endpoint.index _ (some link.choice)
        priority haction rfl
  | signal env endpoint value =>
      exact Connection.sendValue_queues hshaped htree env endpoint.index _ none .normal
        Payload.nothing_writesOn rfl
  | assign env cache object =>
      exact Connection.assign_queues hshaped htree env cache haction object rfl

end PathWire
