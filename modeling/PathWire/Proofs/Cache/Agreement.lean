/-
Two peers agree on the objects of their caches.

A side that gives an object an id queues the put of the object before it answers, and messages
come through in order.  So the `Ledger` of a direction holds whatever the two sides do, and a
message that was queued after an id was given out finds the object of that id.
-/
import PathWire.Proofs.Cache.Ledger
import PathWire.Proofs.Peer.Agreement
import PathWire.Proofs.Peer.Hostile

namespace PathWire

variable {A : Application}

/-! ### What a side does on its own -/

namespace Action

/-- A program's own action: it sends to an endpoint of its own, or gives an object of a declared
cache an id. -/
def Ordinary (caches : List (AnyCache A)) : Action A → Prop
  | send _ endpoint _ _ payload | sendLinked _ endpoint _ _ _ payload =>
    payload.WritesOn ∧ ∀ cache ∈ caches, endpoint.index ≠ cache.2.endpoint.index
  | signal _ endpoint _ => ∀ cache ∈ caches, endpoint.index ≠ cache.2.endpoint.index
  | @assign _ item _ cache _ => ⟨item, cache⟩ ∈ caches

/-- What is asked of all caches holds of the action's too. -/
theorem Ordinary.writesOn {caches : List (AnyCache A)} {action : Action A}
    (h : action.Ordinary caches) (hcodecs : ∀ cache ∈ caches, cache.2.codec.WritesOn) :
    action.WritesOn := by
  cases action with
  | send | sendLinked => exact h.1
  | signal => trivial
  | assign env cache object => exact hcodecs _ h

/-- Such an action gives ids to objects of declared caches only. -/
theorem Ordinary.declared {caches : List (AnyCache A)} {action : Action A}
    (h : action.Ordinary caches) : action.Declared caches := by
  cases action with
  | assign => exact h
  | _ => trivial

end Action

/-- The id that was given to an object, if it was. -/
def Assignment.given {item : A.Item} (cache : ObjectCache A item) (object : A.Object item)
    (behind : Nat) : Except ProtocolError Nat → List (Assignment A)
  | .ok id => [⟨item, cache, object, id, behind⟩]
  | .error _ => []

/-- The id that an action gives out, `behind` so many messages. -/
def Action.assigned (conn : Connection A) (behind : Nat) : Action A → List (Assignment A)
  | assign env cache object => Assignment.given cache object behind (cache.assign env conn object).1
  | send _ _ _ _ _ | sendLinked _ _ _ _ _ _ | signal _ _ _ => []

namespace Connection

/-- What a send queues is on the way to its endpoint. -/
theorem posts_end {α : Type} (conn : Connection A) (env : A.Env) (endpoint : NodeIndex)
    (value : Value A) (chosen : Option (LinkChoice A)) (priority : Priority)
    (payload : Payload A α) : ∀ message ∈ conn.posts
      (conn.afterSend (conn.sendValue env endpoint value chosen priority payload))
      (Route.resolve conn.tree env endpoint value chosen),
      message.path.getLast? = some endpoint := by
  intro message hmem
  cases hsend : conn.sendValue env endpoint value chosen priority payload with
  | error cause =>
      rw [hsend, afterSend, posts_same _ rfl] at hmem
      cases hmem
  | ok result =>
      obtain ⟨answer, after⟩ := result
      obtain ⟨sent⟩ := sendValue_ok hsend
      obtain ⟨hclimbs, -⟩ := Route.climb_ok _ sent.resolved
      rw [sent.resolved] at hmem
      obtain ⟨out, -, rfl⟩ := List.mem_map.mp hmem
      exact hclimbs.getLast? sent.addressed

end Connection

namespace Ledger

variable {tree : Tree A} {caches : List (AnyCache A)} {log : List (Assignment A)}
  {conn : Connection A} {posted : List Posted} {delivered : Nat} {receiver : CacheStore A}

/-- Tables that are rewritten in what the peer has assigned only. -/
theorem rewrites_same {before after : CacheStore A} {cache : AnyCache A} {slot : Nat}
    {item : A.Item} {table : CacheTable A item} (h : before.Rewrites after slot table)
    (htable : (before.tableAt slot item).SameOutgoing table) :
    (cache.2.table before).SameOutgoing (cache.2.table after) :=
  h.all (fun _ => ⟨rfl, rfl⟩) htable _ _

/-- A send to an endpoint of the program. -/
theorem send {α : Type} (h : Ledger caches log conn.caches posted delivered receiver) {env : A.Env}
    {endpoint : NodeIndex} {value : Value A} {chosen : Option (LinkChoice A)} {priority : Priority}
    {payload : Payload A α} (hother : ∀ cache ∈ caches, endpoint ≠ cache.2.endpoint.index) :
    Ledger caches (log ++ [])
      (conn.afterSend (conn.sendValue env endpoint value chosen priority payload)).caches
      (posted ++ conn.posts
        (conn.afterSend (conn.sendValue env endpoint value chosen priority payload))
        (Route.resolve conn.tree env endpoint value chosen)) delivered receiver := by
  obtain ⟨outgoing, nextFreeId, outbox, hconn⟩ :=
    conn.afterSend_frame env endpoint value chosen priority payload
  have hposts := conn.posts_end env endpoint value chosen priority payload
  have hcaches : (conn.afterSend (conn.sendValue env endpoint value chosen priority
      payload)).caches = conn.caches := by rw [hconn]
  rw [hcaches, List.append_nil]
  refine ⟨h.books, h.mail.post fun message hmem _ cache hcache hends => ?_, h.shelf⟩
  rw [hposts message hmem] at hends
  exact hother cache hcache (Option.some.inj hends)

/-- Giving an object of a declared cache an id. -/
theorem assigns (h : Ledger caches log conn.caches posted delivered receiver)
    (hstock : conn.tree.Stock caches) (htree : conn.tree.WritesOn)
    (hdelivered : delivered ≤ posted.length) (hnumbered : conn.ids.Numbered)
    (hfield : conn.ids.maxId < 2 ^ 32) {cache : AnyCache A} (hcache : cache ∈ caches)
    (hcodec : cache.2.codec.ReadsBack) {env : A.Env} {object : A.Object cache.1}
    {answer : Except ProtocolError Nat} {after : Connection A}
    (hassigns : cache.2.Assigns env conn object answer after) {fresh : List Posted}
    (hfresh : conn.posts after
      (Route.resolve conn.tree env cache.2.endpoint.index .unit none) = fresh) :
    Ledger caches (log ++ Assignment.given cache.2 object (posted ++ fresh).length answer)
      after.caches (posted ++ fresh) delivered receiver := by
  have hsame : ∀ {stored : CacheStore A} {table : CacheTable A cache.1},
      conn.caches.Rewrites stored cache.2.slot table →
      (cache.2.table conn.caches).SameOutgoing table →
      Ledger caches log stored posted delivered receiver :=
    fun hcaches htable => ⟨h.books.keep fun _ _ => rewrites_same hcaches htable, h.mail, h.shelf⟩
  cases hassigns with
  | refused hcaches =>
      obtain rfl : fresh = [] := hfresh.symm.trans (Connection.posts_same _ rfl)
      simpa only [Assignment.given, List.append_nil] using hsame hcaches ⟨rfl, rfl⟩
  | known hid hcaches =>
      obtain rfl : fresh = [] := hfresh.symm.trans (Connection.posts_same _ rfl)
      have hkept := hsame hcaches ⟨rfl, rfl⟩
      have hid : (cache.2.table _).idOf? (cache.2.codec.keyOf object) = some _ :=
        ((rewrites_same hcaches ⟨rfl, rfl⟩).idOf? _).trans hid
      rw [List.append_nil]
      exact hkept.again hcache hid rfl
  | failed hcaches =>
      obtain rfl : fresh = [] := hfresh.symm.trans (Connection.posts_same _ rfl)
      simpa only [Assignment.given, List.append_nil] using
        hsame hcaches ((h.books.counted cache hcache).release _)
  | @fresh stored _ hnew hroom hcaches hsent =>
      have hputs := hsent.puts hstock hcache htree hcodec hnumbered hfield
      obtain ⟨outgoing, nextFreeId, outbox, hafter⟩ := hsent.frame
      have hstored : after.caches = stored := by rw [hafter]
      rw [(h.books.counted cache hcache).length] at hroom
      have hgive : ∀ lead : List Posted, (∀ message ∈ lead, message.IsAnnounce) →
          fresh = lead ++ [⟨hsent.written.bytes, hsent.route.nodes, hsent.route.keys⟩] →
          Ledger caches (log ++ Assignment.given cache.2 object (posted ++ fresh).length
            (.ok (cache.2.table conn.caches).nextId)) after.caches (posted ++ fresh) delivered
            receiver := by
        rintro lead hlead rfl
        have hgiven := h.give hstock hdelivered hcache hnew hroom hcaches hlead hputs
        rw [hstored, ← List.append_assoc]
        simpa only [Assignment.given, List.length_append, List.length_singleton] using hgiven
      have hroute : Route.resolve conn.tree env cache.2.endpoint.index .unit none
          = .ok hsent.route := hsent.resolved
      rw [hroute] at hfresh
      rcases hsent.posts_cases with hposts | ⟨first, hannounce, hposts⟩
      · exact hgive [] (by simp) (hfresh.symm.trans hposts)
      · refine hgive [first] (fun message hmem => ?_) (hfresh.symm.trans hposts)
        rw [List.mem_singleton.mp hmem]
        exact hannounce

end Ledger

/-! ### The caches of one direction -/

/-- What the two sides of a direction hold of the caches. -/
def Account (caches : List (AnyCache A)) (log : List (Assignment A)) (sender receiver : Party A) :
    Prop :=
  Ledger caches log sender.conn.caches sender.posted sender.delivered receiver.conn.caches

namespace Account

variable {tree : Tree A} {caches : List (AnyCache A)} {log : List (Assignment A)}
  {party peer : Party A}

/-- An action goes on with the caches of the side that acts. -/
theorem act (h : Account caches log party peer) (hlink : Link tree party peer)
    (hparty : party.On tree) (hstock : tree.Stock caches) (hwrites : tree.WritesOn)
    (hcodecs : ∀ cache ∈ caches, cache.2.codec.ReadsBack) {action : Action A}
    (haction : action.Ordinary caches) :
    Account caches (log ++ action.assigned party.conn (party.act action).posted.length)
      (party.act action) peer := by
  have hfield := hparty.field
  obtain ⟨htree, -⟩ := hparty
  subst htree
  cases action with
  | send env endpoint value priority payload => exact Ledger.send h haction.2
  | sendLinked env endpoint value link priority payload => exact Ledger.send h haction.2
  | signal env endpoint value => exact Ledger.send h haction
  | assign env cache object =>
      exact Ledger.assigns h hstock hwrites hlink.bounded hlink.numbered hfield haction
        (hcodecs _ haction) (cache.assign_assigns env party.conn object rfl) rfl

/-- An action leaves the caches towards the side that acts alone. -/
theorem act_peer (h : Account caches log peer party)
    (hstock : tree.Stock caches) {action : Action A} (haction : action.Ordinary caches) :
    Account caches log peer (party.act action) := by
  obtain ⟨outgoing, nextFreeId, outbox, stored, hconn, hstored⟩ := action.frame party.conn
  refine ⟨h.books, h.mail, ?_⟩
  refine h.shelf.stay (fun cache _ => ?_) (haction.declared.sorted hstock.slots h.shelf.opens)
  have hsame : (action.perform party.conn).caches = stored := by rw [hconn]
  unfold ObjectCache.table Party.act
  rw [hsame]
  exact hstored _ _

/-- **The put that comes through next is accepted**, and the receiver stores the object that was
first given the id. -/
theorem accepts_put (h : Account caches log party peer) (hlink : Link tree party peer)
    (hparty : party.On tree) (hpeer : peer.On tree) (hstock : tree.Stock caches) {next : Posted}
    (hnext : party.posted[party.delivered]? = some next) (hordinary : ¬ next.IsAnnounce)
    {cache : AnyCache A} (hcache : cache ∈ caches)
    (hends : next.path.getLast? = some cache.2.endpoint.index) (env : A.Env) :
    ∃ object id tag stored, Assignment.first? log cache.2.slot id
        = some ⟨cache.1, cache.2, object, id, party.delivered + 1⟩ ∧
      peer.conn.receive env next.bytes = ⟨.ok (.dispatched tag (tree.dotted next.path)),
        { peer.conn with caches := stored }, []⟩ ∧
      peer.conn.caches.Rewrites stored cache.2.slot
        ((cache.2.table peer.conn.caches).learn id object) := by
  obtain ⟨object, id, hfirst⟩ := h.mail.only cache hcache hnext hordinary hends
  obtain ⟨place, message, hplace, hmessage, hputs⟩ := h.mail.put hfirst
  obtain rfl : party.delivered = place := Nat.succ.inj hplace
  cases hnext.symm.trans hmessage
  obtain ⟨tag, -, htag, hlookup⟩ := hlink.finds_path hparty.field
    (hpeer.limit.trans hparty.limit.symm) hnext hordinary
  obtain ⟨htree, -⟩ := hpeer
  subst htree
  obtain ⟨stored, hreceive, hcaches⟩ := Connection.receive_put hstock hcache
    (h.shelf.opens cache hcache) hputs htag hlookup (h.books.id_range hfirst)
    (h.shelf.free hcache hfirst) env
  exact ⟨object, id, tag, stored, hfirst, hreceive, hcaches⟩

/-- A message that goes to no cache leaves the caches as they are. -/
theorem receive_other (hlink : Link tree party peer) (hparty : party.On tree)
    (hpeer : peer.On tree) (hstock : tree.Stock caches) {next : Posted}
    (hnext : party.posted[party.delivered]? = some next) (hordinary : ¬ next.IsAnnounce)
    (hends : ∀ cache ∈ caches, next.path.getLast? ≠ some cache.2.endpoint.index) (env : A.Env) :
    (peer.conn.receive env next.bytes).conn.caches = peer.conn.caches := by
  obtain ⟨tag, -, htag, hlookup⟩ := hlink.finds_path hparty.field
    (hpeer.limit.trans hparty.limit.symm) hnext hordinary
  obtain ⟨htree, -⟩ := hpeer
  subst htree
  rcases Connection.receive_caches hstock env next.bytes with hsame | ⟨cache, hcache, taken, -⟩
  · exact hsame
  · exfalso
    have htagged : messageTag? next.bytes = some taken.arrival.tag.toNat := by
      unfold messageTag?
      rw [taken.arrival.tagged]
    cases htag.symm.trans htagged
    have hpath : taken.arrival.path = next.resolved peer.conn.tree :=
      Except.ok.inj (taken.arrival.bound.symm.trans hlookup)
    have htaken := taken.ends
    rw [hpath] at htaken
    exact hends cache hcache htaken

/-- A delivery goes on with the caches of the direction of the message. -/
theorem deliver (h : Account caches log party peer) (hlink : Link tree party peer)
    (hparty : party.On tree) (hpeer : peer.On tree) (hshaped : tree.Shaped)
    (hpaths : party.conn.ids.Announceable) (hstock : tree.Stock caches)
    {message : Outbound} (hhead : party.inFlight.head? = some message) (env : A.Env) :
    Account caches log party.deliver (peer.receive env message.bytes) := by
  obtain ⟨rest, hrest⟩ := List.head?_eq_some_iff.mp hhead
  have hpending : party.inFlight ++ party.conn.outbox
      = message :: (rest ++ party.conn.outbox) := by rw [hrest, List.cons_append]
  obtain ⟨next, hnext, hbytes, -⟩ := Channel.next hlink hpending
  rw [← hbytes]
  by_cases hannounce : next.IsAnnounce
  · obtain ⟨known, bound, -, hreceive, -⟩ := hlink.accepts_announce hshaped hpaths hparty.field
      (hpeer.limit.trans hparty.limit.symm) hnext hannounce hpeer.same rfl
    unfold Account Party.receive
    rw [hreceive]
    exact h.pass hnext (.inl hannounce)
  · by_cases hput : ∃ cache ∈ caches, next.path.getLast? = some cache.2.endpoint.index
    · obtain ⟨cache, hcache, hends⟩ := hput
      obtain ⟨object, id, tag, stored, hfirst, hreceive, hcaches⟩ :=
        h.accepts_put hlink hparty hpeer hstock hnext hannounce hcache hends env
      unfold Account Party.receive
      rw [hreceive]
      exact h.take hstock hcache env hfirst hcaches
    · have hother : ∀ cache ∈ caches, next.path.getLast? ≠ some cache.2.endpoint.index :=
        fun cache hcache hends => hput ⟨cache, hcache, hends⟩
      unfold Account Party.receive
      rw [receive_other hlink hparty hpeer hstock hnext hannounce hother env]
      exact h.pass hnext (.inr hother)

/-- A delivery leaves the caches of the other direction alone. -/
theorem receive (h : Account caches log peer party) (hpeer : peer.On tree)
    (hstock : tree.Stock caches) (env : A.Env) (message : Bytes) :
    Account caches log (peer.receive env message) party.deliver := by
  have hlearns := Connection.receive_learns (hpeer.same.symm ▸ hstock) env message
  exact ⟨h.books.keep fun cache _ => hlearns.unmoved.tables _ _, h.mail, h.shelf⟩

end Account

/-! ### Whatever the two sides do -/

namespace Move

/-- In a step a program acts of its own. -/
def Ordinary (caches : List (AnyCache A)) : Move A → Prop
  | act _ action => action.Ordinary caches
  | drain _ | deliver _ _ => True

theorem Ordinary.writesOn {caches : List (AnyCache A)} {step : Move A} (h : step.Ordinary caches)
    (hcodecs : ∀ cache ∈ caches, cache.2.codec.ReadsBack) : step.WritesOn := by
  cases step with
  | act side action =>
      exact Action.Ordinary.writesOn h fun cache hcache => (hcodecs cache hcache).writesOn
  | drain | deliver => trivial

/-- The id that a side gives out in a step. -/
def assigned (net : Net A) (side : Side) : Move A → List (Assignment A)
  | act actor action =>
    if actor = side
    then action.assigned (net side).conn ((net side).act action).posted.length
    else []
  | drain _ | deliver _ _ => []

end Move

namespace Net

/-- The ids that a side gives out, one after the other. -/
def assigned (side : Side) (net : Net A) : List (Move A) → List (Assignment A)
  | [] => []
  | step :: rest => step.assigned net side ++ (net.move step).assigned side rest

/-- The caches of the direction from a side, after what the side has given out. -/
structure Kept (tree : Tree A) (caches : List (AnyCache A)) (side : Side)
    (log : List (Assignment A)) (net : Net A) : Prop where
  sound : net.Sound tree
  account : Account caches log (net side) (net side.other)

theorem kept_start (tree : Tree A) (caches : List (AnyCache A)) (side : Side)
    (label : Side → String) (attachment : Side → Option (Value A)) :
    (start tree label attachment).Kept tree caches side [] :=
  ⟨sound_start tree label attachment, Ledger.start caches⟩

namespace Kept

variable {tree : Tree A} {caches : List (AnyCache A)} {side : Side} {log : List (Assignment A)}
  {net : Net A}

theorem act (h : net.Kept tree caches side log) (hstock : tree.Stock caches)
    (hwrites : tree.WritesOn) (hcodecs : ∀ cache ∈ caches, cache.2.codec.ReadsBack)
    (actor : Side) {action : Action A} (haction : action.Ordinary caches) :
    Account caches (log ++ (Move.act actor action).assigned net side)
      (net.move (.act actor action) side) (net.move (.act actor action) side.other) := by
  have hactor : net.move (.act actor action) actor = (net actor).act action :=
    Function.update_self actor _ net
  by_cases hself : actor = side
  · subst hself
    have hpeer : net.move (.act actor action) actor.other = net actor.other :=
      Function.update_of_ne actor.other_ne _ net
    rw [hactor, hpeer, Move.assigned, if_pos rfl]
    exact h.account.act (h.sound.link actor) (h.sound.on actor) hstock hwrites hcodecs haction
  · obtain rfl : actor = side.other := by
      cases actor <;> cases side <;> first | rfl | exact absurd rfl hself
    have hpeer : net.move (.act side.other action) side = net side :=
      Function.update_of_ne side.other_ne.symm _ net
    rw [hactor, hpeer, Move.assigned, if_neg hself, List.append_nil]
    exact h.account.act_peer hstock haction

theorem drain (h : net.Kept tree caches side log) (actor : Side) :
    Account caches log (net.move (.drain actor) side) (net.move (.drain actor) side.other) := by
  have hparty : ∀ party, (net.move (.drain actor) party).conn.caches = (net party).conn.caches ∧
      (net.move (.drain actor) party).posted = (net party).posted ∧
      (net.move (.drain actor) party).delivered = (net party).delivered := by
    intro party
    by_cases hself : party = actor
    · subst hself
      have hactor : net.move (.drain party) party = (net party).drain :=
        Function.update_self party _ net
      rw [hactor]
      exact ⟨rfl, rfl, rfl⟩
    · have hother : net.move (.drain actor) party = net party :=
        Function.update_of_ne hself _ net
      rw [hother]
      exact ⟨rfl, rfl, rfl⟩
  obtain ⟨hcaches, hposted, hdelivered⟩ := hparty side
  obtain ⟨hpeer, -, -⟩ := hparty side.other
  unfold Account
  rw [hcaches, hposted, hdelivered, hpeer]
  exact h.account

theorem deliver (h : net.Kept tree caches side log) (hshaped : tree.Shaped)
    (hpaths : net.Announceable) (hstock : tree.Stock caches) (actor : Side) (env : A.Env) :
    Account caches log (net.move (.deliver actor env) side)
      (net.move (.deliver actor env) side.other) := by
  cases hhead : (net actor).inFlight.head? with
  | none =>
      have hsame : net.move (.deliver actor env) = net := by simp only [Net.move, hhead]
      rw [hsame]
      exact h.account
  | some message =>
      have hfrom : net.move (.deliver actor env) actor = (net actor).deliver := by
        simp only [Net.move, hhead, Function.update_of_ne actor.other_ne.symm,
          Function.update_self]
      have hto : net.move (.deliver actor env) actor.other
          = (net actor.other).receive env message.bytes := by
        simp only [Net.move, hhead, Function.update_self]
      by_cases hself : actor = side
      · subst hself
        rw [hfrom, hto]
        exact h.account.deliver (h.sound.link actor) (h.sound.on actor) (h.sound.on actor.other)
          hshaped (hpaths actor) hstock hhead env
      · obtain rfl : actor = side.other := by
          cases actor <;> cases side <;> first | rfl | exact absurd rfl hself
        rw [Side.other_other] at hto
        rw [hfrom, hto]
        exact h.account.receive (h.sound.on side) hstock env message.bytes

/-- **Whatever the peers do, the caches of a direction go on.** -/
theorem move (h : net.Kept tree caches side log) (hshaped : tree.Shaped)
    (hpaths : net.Announceable) (hstock : tree.Stock caches)
    (hwrites : tree.WritesOn) (hcodecs : ∀ cache ∈ caches, cache.2.codec.ReadsBack)
    {step : Move A} (hstep : step.Ordinary caches) :
    (net.move step).Kept tree caches side (log ++ step.assigned net side) := by
  refine ⟨h.sound.move hshaped hwrites hpaths (hstep.writesOn hcodecs), ?_⟩
  cases step with
  | act actor action => exact h.act hstock hwrites hcodecs actor hstep
  | drain actor => exact (List.append_nil log).symm ▸ h.drain actor
  | deliver actor env =>
      exact (List.append_nil log).symm ▸ h.deliver hshaped hpaths hstock actor env

/-- The caches of a direction after any number of steps. -/
theorem run (hshaped : tree.Shaped) (hstock : tree.Stock caches) (hwrites : tree.WritesOn)
    (hcodecs : ∀ cache ∈ caches, cache.2.codec.ReadsBack) (moves : List (Move A)) :
    ∀ {net : Net A} {log : List (Assignment A)}, net.Kept tree caches side log →
      (∀ step ∈ moves, step.Ordinary caches) → (net.run moves).Announceable →
      (net.run moves).Kept tree caches side (log ++ net.assigned side moves) := by
  induction moves with
  | nil =>
      intro net log h _ _
      exact (List.append_nil log).symm ▸ h
  | cons step rest ih =>
      intro net log h hmoves hpaths
      have hnow : net.Announceable := (Follows.run h.sound.on hshaped hwrites (step :: rest)
        fun one hone => (hmoves one hone).writesOn hcodecs).announceable hpaths
      obtain ⟨hstep, hrest⟩ := List.forall_mem_cons.mp hmoves
      have hnext := h.move hshaped hnow hstock hwrites hcodecs hstep
      rw [assigned, ← List.append_assoc]
      exact ih hnext hrest hpaths

end Kept

end Net

/-! ### What it means for the objects -/

/-- The object that an id stands for: the one that was given the id first. -/
structure Represents (log : List (Assignment A)) (posted : List Posted) (entry : Assignment A)
    (object : A.Object entry.item) (place : Nat) : Prop where
  first : Assignment.first? log entry.cache.slot entry.id
    = some ⟨entry.item, entry.cache, object, entry.id, place + 1⟩
  same : entry.cache.codec.keyOf object = entry.cache.codec.keyOf entry.object
  /-- Its put was queued at the place. -/
  put : ∃ message, posted[place]? = some message ∧ ¬ message.IsAnnounce ∧
    message.path.getLast? = some entry.cache.endpoint.index
  /-- Whatever was queued after the id was given out, now or then, stands behind the put. -/
  before : place < entry.behind

/-- What is promised of the caches of one direction, at any moment. -/
structure CacheAgreement (tree : Tree A) (caches : List (AnyCache A)) (log : List (Assignment A))
    (sender receiver : Party A) : Prop where
  /-- A put that comes through next is accepted. -/
  accepted : ∀ message, sender.inFlight.head? = some message → ∃ next,
    sender.posted[sender.delivered]? = some next ∧ next.bytes = message.bytes ∧
      (¬ next.IsAnnounce → ∀ cache ∈ caches,
        next.path.getLast? = some cache.2.endpoint.index → ∀ env, ∃ tag,
          (receiver.conn.receive env message.bytes).outcome
            = .ok (.dispatched tag (tree.dotted next.path)))
  /-- An id that was given out stands for one object, and once the put of the object has come
  through, the receiver finds it. -/
  resolved : ∀ entry ∈ log, ∃ object place, Represents log sender.posted entry object place ∧
    (place < sender.delivered →
      entry.cache.resolve receiver.conn.caches entry.id = .ok object)
  /-- A message that was queued after an id was given out finds the object of the id when it comes
  through. -/
  handled : ∀ entry ∈ log, entry.behind ≤ sender.delivered → ∃ object place,
    Represents log sender.posted entry object place ∧
      entry.cache.resolve receiver.conn.caches entry.id = .ok object

namespace Account

variable {tree : Tree A} {caches : List (AnyCache A)} {log : List (Assignment A)}
  {party peer : Party A} {entry : Assignment A}

/-- Every id that was given out has its object. -/
theorem represents (h : Account caches log party peer) (hentry : entry ∈ log) :
    ∃ object place, Represents log party.posted entry object place := by
  obtain ⟨hcache, hid⟩ := h.books.logged entry hentry
  obtain ⟨object, behind, hfirst, hkey⟩ := h.books.named _ hcache hid
  obtain ⟨place, message, hplace, hmessage, hputs⟩ := h.mail.put hfirst
  obtain rfl : behind = place + 1 := hplace
  exact ⟨object, place, hfirst, hkey, ⟨message, hmessage, hputs.ordinary, hputs.ends⟩,
    h.mail.earliest entry hentry _ hfirst⟩

/-- The receiver finds the object whose put has come through. -/
theorem resolves (h : Account caches log party peer) (hentry : entry ∈ log)
    {object : A.Object entry.item} {place : Nat}
    (hrepresents : Represents log party.posted entry object place)
    (hplace : place < party.delivered) :
    entry.cache.resolve peer.conn.caches entry.id = .ok object := by
  obtain ⟨hcache, -⟩ := h.books.logged entry hentry
  exact ObjectCache.resolve_ok.mpr
    ((h.shelf.held _ hcache).mpr ⟨place + 1, hrepresents.first, hplace⟩)

end Account

theorem Net.Kept.agreement {tree : Tree A} {caches : List (AnyCache A)} {side : Side}
    {log : List (Assignment A)} {net : Net A} (h : net.Kept tree caches side log)
    (hstock : tree.Stock caches) :
    CacheAgreement tree caches log (net side) (net side.other) := by
  obtain ⟨hsound, haccount⟩ := h
  constructor
  case accepted =>
    intro message hhead
    obtain ⟨rest, hrest⟩ := List.head?_eq_some_iff.mp hhead
    have hpending : (net side).inFlight ++ (net side).conn.outbox
        = message :: (rest ++ (net side).conn.outbox) := by rw [hrest, List.cons_append]
    obtain ⟨next, hnext, hbytes, -⟩ := Channel.next (hsound.link side) hpending
    refine ⟨next, hnext, hbytes, fun hordinary cache hcache hends env => ?_⟩
    obtain ⟨_, _, tag, _, -, hreceive, -⟩ := haccount.accepts_put (hsound.link side)
      (hsound.on side) (hsound.on side.other) hstock hnext hordinary hcache hends env
    exact ⟨tag, by rw [← hbytes, hreceive]⟩
  case resolved =>
    intro entry hentry
    obtain ⟨object, place, hrepresents⟩ := haccount.represents hentry
    exact ⟨object, place, hrepresents, haccount.resolves hentry hrepresents⟩
  case handled =>
    intro entry hentry hcame
    obtain ⟨object, place, hrepresents⟩ := haccount.represents hentry
    exact ⟨object, place, hrepresents, haccount.resolves hentry hrepresents
      (Nat.lt_of_lt_of_le hrepresents.before hcame)⟩

/-- **Two peers agree on the objects of their caches**, whatever they do in whatever order, if the
program's handlers leave the caches to the library. -/
theorem cache_agreement_of_run {revision : Revision} {builder : TreeBuilder A}
    {handles : List (Handle A)} {caches : List (AnyCache A)}
    (hstocked : Stocked revision (fun _ call => call.KeepsCaches) builder handles caches)
    (hwrites : builder.build.WritesOn) (hcodecs : ∀ cache ∈ caches, cache.2.codec.ReadsBack)
    (label : Side → String) (attachment : Side → Option (Value A)) (moves : List (Move A))
    (hmoves : ∀ step ∈ moves, step.Ordinary caches)
    (hpaths : ((Net.start builder.build label attachment).run moves).Announceable) (side : Side) :
    CacheAgreement builder.build caches
      ((Net.start builder.build label attachment).assigned side moves)
      ((Net.start builder.build label attachment).run moves side)
      ((Net.start builder.build label attachment).run moves side.other) := by
  have hstock := hstocked.tree
  have hstart := Net.kept_start builder.build caches side label attachment
  have hkept := hstart.run hstocked.built.shaped hstock hwrites hcodecs moves hmoves hpaths
  exact hkept.agreement hstock

/-! A tree with one cache of things, which are told apart by their kind alone. -/

namespace Things

open Scenario (app objectCodec CacheKind)

/-- The only declaration of the tree. -/
def declaration : BuilderCall app := .cache "things" (objectCodec 64 .item)

/-- The tree under construction. -/
def builder : TreeBuilder app :=
  match declaration.run (.new .zero) with
  | .ok _ after | .error _ after => after

/-- The cache of the tree. -/
def cache : ObjectCache app CacheKind.item := ⟨"things", 0, 65536, objectCodec 64 .item, ⟨⟨2⟩⟩⟩

theorem stocked : Stocked .zero (fun _ call => call.KeepsCaches) builder
    [.parent .unit .root, .endpoint .unit ⟨2⟩] [⟨CacheKind.item, cache⟩] := by
  have hcall : declaration.run (.new .zero) = .ok [.endpoint .unit ⟨2⟩] builder := rfl
  exact .answered declaration .new trivial hcall

theorem tree_writesOn : builder.build.WritesOn := by
  intro index node carrier hnode hcarrier
  obtain ⟨position⟩ := index
  rcases position with _ | _ | _ | position
  · cases hnode
    cases hcarrier
  · cases hnode
    cases hcarrier
  · cases hnode
    cases hcarrier
  · cases hnode

/-- What is written of a thing is its kind and its damage, and both are read back. -/
theorem codec_readsBack : (objectCodec 64 .item).ReadsBack := by
  intro env peerEnv thing enc after hwrite
  obtain ⟨named, hnamed, hafter⟩ := Result.of_bind_ok hwrite
  cases hafter
  have hstr : enc.write (.str thing.kind 64) = .ok named := Connection.liftCodec_ok hnamed
  have hword : named.write (.u16 thing.damage) = .ok (named.writeU16 thing.damage) := rfl
  refine ⟨[.str thing.kind 64, .u16 thing.damage], [.str 64, .u16],
    [.str thing.kind, .u16 thing.damage], ?_, ?_, ?_⟩
  · rw [Encoder.writeAll_cons_ok _ hstr, Encoder.writeAll_cons_ok _ hword]
    rfl
  · rw [Encoder.accepted_cons_ok _ hstr, Encoder.accepted_cons_ok _ hword]
    exact .cons (.str thing.kind 64 64 (Connection.writeStr_fits hstr))
      (.cons (.u16 thing.damage) .nil)
  · intro dec rest hread
    obtain ⟨first, between, hfirst, hread⟩ := Step.of_bind_ok hread
    obtain ⟨kind, behindKind, hkind, hvalue⟩ := Step.of_bind_ok hfirst
    cases hvalue
    obtain ⟨others, behind, hothers, hread⟩ := Step.of_bind_ok hread
    cases hread
    obtain ⟨second, behindSecond, hsecond, hothers⟩ := Step.of_bind_ok hothers
    obtain ⟨damage, behindDamage, hdamage, hsecond⟩ := Step.of_bind_ok hsecond
    cases hsecond
    cases hothers
    have hkind : (Reader.str 64).inMessage dec = .ok thing.kind between :=
      Step.adapt_ok.mpr hkind
    have hdamage : Reader.u16.inMessage between = .ok thing.damage rest :=
      Step.adapt_ok.mpr hdamage
    exact (Step.bind_ok hkind).trans (Step.bind_ok hdamage)

/-- A thing is given an id on the left side. -/
def give (kind : String) (damage : UInt16) : Move app :=
  .act .left (.assign ({} : Scenario.Names) cache ⟨kind, damage⟩)

/-- A sword, an axe and another sword are given ids, and three messages come through: the announce
and the puts of the first two. -/
def moves : List (Move app) :=
  [give "sword" 1, give "axe" 2, give "sword" 3, .drain .left,
    .deliver .left ({} : Scenario.Names), .deliver .left ({} : Scenario.Names),
    .deliver .left ({} : Scenario.Names)]

/-- The two sides before anything has happened. -/
def fresh : Net app := .start builder.build (fun _ => "peer") fun _ => none

/-- The second sword has the id of the first one, and stands for it on the right side. -/
theorem swords_agree :
    CacheAgreement builder.build [⟨CacheKind.item, cache⟩] (fresh.assigned .left moves)
        (fresh.run moves .left) (fresh.run moves .right) ∧
      (fresh.assigned .left moves).map (·.id) = [0, 1, 0] ∧
      (cache.resolve (fresh.run moves .right).conn.caches 0).toOption.map
        (Scenario.CachedObject.of .item) = some (.item ⟨"sword", 1⟩) := by
  refine ⟨?_, by decide +kernel, by decide +kernel⟩
  have hcodecs : ∀ one ∈ [(⟨CacheKind.item, cache⟩ : AnyCache app)], one.2.codec.ReadsBack := by
    intro one hone
    rw [List.mem_singleton.mp hone]
    exact codec_readsBack
  have hmoves : ∀ step ∈ moves, step.Ordinary [⟨CacheKind.item, cache⟩] := by
    simp [moves, give, Move.Ordinary, Action.Ordinary]
  have hpaths : (fresh.run moves).Announceable := Net.announceable_of_depth stocked.built.shaped
    tree_writesOn (by decide) (fun _ => "peer") (fun _ => none) moves
    fun step hstep => (hmoves step hstep).writesOn hcodecs
  exact cache_agreement_of_run stocked tree_writesOn hcodecs (fun _ => "peer") (fun _ => none)
    moves hmoves hpaths .left

end Things

end PathWire
