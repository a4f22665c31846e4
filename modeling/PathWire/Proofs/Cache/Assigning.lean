/-
The ids that one side gives to the objects of its caches.

A new object gets the next id before its put is tried, and loses it again if the put fails for
whatever reason.  An action therefore attempts at most one send, and what it does to the ids of
paths and to the queue is what this attempt does: `HasSent` follows it with the trace of sends.
What is left are the tables of the caches, which `Minted` follows: their ids count up from zero,
and the messages to the endpoint of a cache are the puts of its ids, one for each and in order.
-/
import PathWire.Proofs.Cache.Agreement
import PathWire.Proofs.Peer.Allocation

namespace PathWire

variable {A : Application}

/-! ### What an action attempts to send -/

namespace ObjectCache

variable {item : A.Item}

/-- The attempt to put an object into a cache. -/
def putting (cache : ObjectCache A item) (env : A.Env) (id : Nat) (object : A.Object item) :
    Attempt A where
  env := env
  endpoint := cache.endpoint.index
  value := .unit
  chosen := none
  priority := .normal
  payload := cache.put env id object

/-- An object can be given a new id if it has none yet and there is one left. -/
def Admits (cache : ObjectCache A item) (conn : Connection A) (object : A.Object item) : Prop :=
  (cache.table conn.caches).idOf? (cache.codec.keyOf object) = none ∧
    (cache.table conn.caches).outgoing.length < cache.maxEntries.toNat

instance (cache : ObjectCache A item) (conn : Connection A) (object : A.Object item) :
    Decidable (cache.Admits conn object) :=
  inferInstanceAs (Decidable (_ ∧ _))

/-- The attempts to put an object that is to have an id. -/
def attempts (cache : ObjectCache A item) (env : A.Env) (conn : Connection A)
    (object : A.Object item) : List (Attempt A) :=
  if cache.Admits conn object then [cache.putting env (cache.table conn.caches).nextId object]
  else []

end ObjectCache

/-- What an action attempts to send. -/
def Action.attempts (conn : Connection A) : Action A → List (Attempt A)
  | @send _ _ type env endpoint value priority payload =>
    [⟨env, endpoint.index, ⟨type, value⟩, none, priority, payload⟩]
  | @sendLinked _ _ type _ env endpoint value link priority payload =>
    [⟨env, endpoint.index, ⟨type, value⟩, some link.choice, priority, payload⟩]
  | @signal _ type env endpoint value =>
    [⟨env, endpoint.index, ⟨type, value⟩, none, .normal, .nothing⟩]
  | assign env cache object => cache.attempts env conn object

namespace Connection

/-- The connection after some actions. -/
def performAll (conn : Connection A) (actions : List (Action A)) : Connection A :=
  actions.foldl Action.perform conn

/-- The messages that are sent in the course of some actions. -/
def messages (conn : Connection A) : List (Action A) → List Sent
  | [] => []
  | action :: rest => conn.sent (action.attempts conn) ++ (action.perform conn).messages rest

/-- The ids that are given out in the course of some actions. -/
def givenOut (conn : Connection A) : List (Action A) → List (Assignment A)
  | [] => []
  | action :: rest =>
    action.assigned conn (action.perform conn).outbox.length ++ (action.perform conn).givenOut rest

/-- A path is announced whatever the caches hold. -/
theorem introduce_caches (conn : Connection A) (caches : CacheStore A) (id : Nat) (path : Path)
    (priority : Priority) : introduce { conn with caches } id path priority
      = (conn.introduce id path priority).map fun after => { after with caches } := by
  unfold introduce
  cases conn.ids.outgoing? path with
  | some known => rfl
  | none =>
      cases announce conn.tree id path with
      | ok bytes => rfl
      | error cause => rfl

theorem sendAll_ok {conn after : Connection A} {attempt : Attempt A} {answer : attempt.Answer}
    (hmake : attempt.make conn = .ok (answer, after)) : conn.sendAll [attempt] = after := by
  simp only [sendAll, List.foldl_cons, List.foldl_nil, hmake, afterSend]

theorem sendAll_error {conn : Connection A} {attempt : Attempt A} {cause : ProtocolError}
    (hmake : attempt.make conn = .error cause) : conn.sendAll [attempt] = conn := by
  simp only [sendAll, List.foldl_cons, List.foldl_nil, hmake, afterSend]

theorem sent_ok {conn after : Connection A} {attempt : Attempt A} {answer : attempt.Answer}
    {message : Sent} (hmake : attempt.make conn = .ok (answer, after))
    (hmessage : attempt.message conn = .ok message) : conn.sent [attempt] = [message] := by
  simp only [sent, hmake, hmessage]

theorem sent_error {conn : Connection A} {attempt : Attempt A} {cause : ProtocolError}
    (hmake : attempt.make conn = .error cause) : conn.sent [attempt] = [] := by
  simp only [sent, hmake]

end Connection

namespace Attempt

variable {conn : Connection A} {attempt : Attempt A} {message : Sent}

/-- A message whose payload does not look at the caches is sent whatever they hold. -/
theorem make_caches
    (hpayload : ∀ ctx one other enc, attempt.payload ctx one enc = attempt.payload ctx other enc)
    (conn : Connection A) (caches : CacheStore A) : attempt.make { conn with caches }
      = (attempt.make conn).map fun result => (result.1, { result.2 with caches }) := by
  have hcompose : ∀ route id,
      attempt.compose { conn with caches } route id = attempt.compose conn route id := by
    intro route id
    unfold compose
    simp only [hpayload _ caches conn.caches]
    rfl
  rw [make_eq, make_eq]
  simp only [hcompose, Connection.introduce_caches]
  cases attempt.route conn.tree with
  | error cause => rfl
  | ok route =>
      simp only [Result.bind_ok rfl]
      cases Connection.idFor conn.ids route.nodes with
      | error cause => rfl
      | ok id =>
          simp only [Result.bind_ok rfl]
          cases attempt.compose conn route id with
          | error cause => rfl
          | ok composed =>
              simp only [Result.bind_ok rfl]
              cases conn.introduce id route.nodes attempt.priority with
              | error cause => rfl
              | ok introduced => rfl

/-- What is known of a message that was sent. -/
theorem message_ok (h : attempt.message conn = .ok message) : ∃ route id answer,
    conn.tree.isEndpoint attempt.endpoint = true ∧
      Route.resolve conn.tree attempt.env attempt.endpoint attempt.value attempt.chosen
        = .ok route ∧
      attempt.compose conn route id = .ok (answer, message.bytes) ∧
      message.path = route.nodes ∧ message.priority = attempt.priority := by
  obtain ⟨route, hroute, h⟩ := Result.of_bind_ok h
  obtain ⟨id, -, h⟩ := Result.of_bind_ok h
  obtain ⟨⟨answer, bytes⟩, hcompose, h⟩ := Result.of_bind_ok h
  cases h
  unfold Attempt.route at hroute
  by_cases hendpoint : conn.tree.isEndpoint attempt.endpoint = true
  · simp only [hendpoint, Bool.not_true, Bool.false_eq_true, if_false] at hroute
    exact ⟨route, id, answer, hendpoint, hroute, hcompose, rfl, rfl⟩
  · simp [hendpoint, throw, throwThe, MonadExceptOf.throw, bind, Except.bind] at hroute

/-- The path of a message ends at its endpoint. -/
theorem message_ends (h : attempt.message conn = .ok message) :
    message.path.getLast? = some attempt.endpoint := by
  obtain ⟨route, id, answer, hendpoint, hresolve, -, hpath, -⟩ := message_ok h
  obtain ⟨hclimbs, -⟩ := Route.climb_ok _ hresolve
  rw [hpath]
  exact hclimbs.getLast? hendpoint

end Attempt

/-- What an attempt sends goes to its endpoint. -/
theorem Connection.sent_ends {conn : Connection A} {attempt : Attempt A} :
    ∀ message ∈ conn.sent [attempt], message.path.getLast? = some attempt.endpoint := by
  intro message hmem
  cases hmake : attempt.make conn with
  | error cause =>
      rw [sent_error hmake] at hmem
      cases hmem
  | ok result =>
      cases hmessage : attempt.message conn with
      | error cause =>
          simp only [sent, hmake, hmessage] at hmem
          cases hmem
      | ok found =>
          rw [sent_ok hmake hmessage] at hmem
          rw [List.mem_singleton.mp hmem]
          exact Attempt.message_ends hmessage

/-- A connection that has sent some messages and no others. -/
structure Connection.HasSent (conn : Connection A) (tree : Tree A) (messages : List Sent) :
    Prop where
  same : conn.tree = tree
  limit : conn.ids.maxId = tree.revision.maxIncomingId.toNat
  handed : conn.ids.Handed (Sent.uses [] messages)
  trace : Trace tree conn.ids.maxId [] messages conn.outbox

namespace Connection.HasSent

variable {tree : Tree A} {conn : Connection A} {messages : List Sent}

theorem start (tree : Tree A) (label : String) (attachment : Option (Value A)) :
    (Connection.new tree label attachment).HasSent tree [] :=
  ⟨rfl, rfl, IdTables.Handed.start _, .nothing⟩

theorem field (h : conn.HasSent tree messages) : conn.ids.maxId < 2 ^ 32 :=
  h.limit ▸ tree.revision.maxIncomingId.toNat_lt

/-- More messages are sent, and whatever is done to the caches. -/
theorem more (h : conn.HasSent tree messages) (htree : tree.WritesOn) {attempts : List (Attempt A)}
    (hpayloads : ∀ attempt ∈ attempts, attempt.payload.WritesOn) (caches : CacheStore A) :
    HasSent { conn.sendAll attempts with caches } tree (messages ++ conn.sent attempts) := by
  have hfield := h.field
  obtain ⟨rfl, hlimit, hhanded, htrace⟩ := h
  obtain ⟨queued, houtbox, hqueued, hsame, hmax, hnext⟩ :=
    sendAll_trace attempts hhanded hfield htree hpayloads
  refine ⟨hsame, hmax.trans hlimit, ?_, ?_⟩
  · rw [Sent.uses, List.foldl_append]
    exact hnext
  · show Trace _ (conn.sendAll attempts).ids.maxId [] _ (conn.sendAll attempts).outbox
    rw [hmax, houtbox]
    exact htrace.append hqueued

end Connection.HasSent

/-! ### The puts of a cache -/

/-- A message that puts an object into a cache: behind the tag stand the id and the object. -/
structure Sent.Puts (message : Sent) {item : A.Item} (cache : ObjectCache A item)
    (object : A.Object item) (id : Nat) : Prop where
  ends : message.path.getLast? = some cache.endpoint.index
  priority : message.priority = .normal
  bytes : ∃ env tag written, cache.codec.write env object
      ((Encoder.empty.writeU32 tag).writeVarU32 (UInt32.ofNat id)) = .ok written ∧
    message.bytes = written.bytes

namespace ObjectCache

variable {item : A.Item}

/-- The messages to the endpoint of a cache. -/
def mail (cache : ObjectCache A item) (messages : List Sent) : List Sent :=
  messages.filter fun message => message.path.getLast? = some cache.endpoint.index

/-- The message puts the object that was first given the id. -/
def Delivers (cache : ObjectCache A item) (log : List (Assignment A)) (message : Sent) (id : Nat) :
    Prop :=
  ∃ object behind, Assignment.first? log cache.slot id = some ⟨item, cache, object, id, behind⟩ ∧
    message.Puts cache object id

theorem Delivers.append {cache : ObjectCache A item} {log : List (Assignment A)} {message : Sent}
    {id : Nat} (h : cache.Delivers log message id) (more : List (Assignment A)) :
    cache.Delivers (log ++ more) message id := by
  obtain ⟨object, behind, hfirst, hputs⟩ := h
  exact ⟨object, behind, Assignment.first?_append hfirst more, hputs⟩

theorem mail_other {cache : ObjectCache A item} {fresh : List Sent}
    (h : ∀ message ∈ fresh, message.path.getLast? ≠ some cache.endpoint.index)
    (messages : List Sent) : cache.mail (messages ++ fresh) = cache.mail messages := by
  have hnone : cache.mail fresh = [] :=
    List.filter_eq_nil_iff.mpr fun message hmem => by simpa using h message hmem
  unfold mail at hnone ⊢
  rw [List.filter_append, hnone, List.append_nil]

theorem mail_put {cache : ObjectCache A item} {message : Sent}
    (h : message.path.getLast? = some cache.endpoint.index) (messages : List Sent) :
    cache.mail (messages ++ [message]) = cache.mail messages ++ [message] := by
  unfold mail
  rw [List.filter_append, List.filter_singleton]
  simp [h]

/-- A put that fails would fail whatever the caches hold. -/
theorem putting_error {cache : ObjectCache A item} {env : A.Env} {conn : Connection A}
    {stored : CacheStore A} {id : Nat} {object : A.Object item} {cause : ProtocolError}
    (h : Connection.send { conn with caches := stored } env cache.endpoint () .normal
      (cache.put env id object) = .error cause) :
    (cache.putting env id object).make conn = .error cause := by
  have hmake : (cache.putting env id object).make { conn with caches := stored } = .error cause := h
  rw [Attempt.make_caches fun _ _ _ _ => rfl] at hmake
  cases hresult : (cache.putting env id object).make conn with
  | ok result =>
      rw [hresult] at hmake
      cases hmake
  | error found =>
      rw [hresult] at hmake
      cases hmake
      rfl

/-- A put that is sent would be sent whatever the caches hold. -/
theorem putting_ok {cache : ObjectCache A item} {env : A.Env} {conn after : Connection A}
    {stored : CacheStore A} {id : Nat} {object : A.Object item}
    (h : (cache.putting env id object).make { conn with caches := stored } = .ok ((), after)) :
    ∃ made, (cache.putting env id object).make conn = .ok ((), made) ∧
      after = { made with caches := stored } := by
  rw [Attempt.make_caches fun _ _ _ _ => rfl] at h
  cases hresult : (cache.putting env id object).make conn with
  | error cause =>
      rw [hresult] at h
      cases h
  | ok result =>
      obtain ⟨⟨⟩, made⟩ := result
      rw [hresult] at h
      cases h
      exact ⟨made, rfl, rfl⟩

/-- The message of a put puts the object. -/
theorem putting_message {Q : Callback A Unit → Prop} {conn : Connection A}
    {caches : List (AnyCache A)} (hstock : conn.tree.StockOf Q caches) {cache : AnyCache A}
    (hcache : cache ∈ caches) {env : A.Env} {id : Nat} {object : A.Object cache.1} {message : Sent}
    (h : (cache.2.putting env id object).message conn = .ok message) :
    message.Puts cache.2 object id := by
  obtain ⟨route, tag, answer, -, hresolve, hcompose, -, hpriority⟩ := Attempt.message_ok h
  refine ⟨Attempt.message_ends h, hpriority, env, UInt32.ofNat tag, ?_⟩
  have hkeys : route.keys = [] := hstock.route_keys hcache hresolve
  unfold Attempt.compose at hcompose
  rw [hkeys, List.zip_nil_left] at hcompose
  obtain ⟨keyed, hkeyed, hcompose⟩ := Result.of_bind_ok hcompose
  cases hkeyed
  obtain ⟨⟨answer, written⟩, hpayload, hcomposed⟩ := Result.of_bind_ok hcompose
  have hbytes : written.bytes = message.bytes := congrArg Prod.snd (Except.ok.inj hcomposed)
  obtain ⟨found, hwrite, hfound⟩ := Result.of_bind_ok hpayload
  cases hfound
  exact ⟨written, hwrite, hbytes.symm⟩

end ObjectCache

/-- The caches of a connection that has given out the ids of `log` and has sent some messages. -/
structure Minted (caches : List (AnyCache A)) (log : List (Assignment A)) (messages : List Sent)
    (store : CacheStore A) : Prop where
  sorted : store.Sorted caches
  books : Books caches log store
  puts : ∀ cache ∈ caches, List.Forall₂ (cache.2.Delivers log) (cache.2.mail messages)
    (List.range (cache.2.table store).nextId)

namespace Minted

variable {Q : Callback A Unit → Prop} {tree : Tree A} {conn : Connection A}
  {caches : List (AnyCache A)} {log : List (Assignment A)} {messages fresh : List Sent}
  {store after : CacheStore A}

theorem start (caches : List (AnyCache A)) : Minted caches [] [] (.empty : CacheStore A) where
  sorted := CacheStore.sorted_empty caches
  books := (Ledger.start caches).books
  puts _ _ := .nil

/-- Messages to the program's endpoints are sent. -/
theorem post (h : Minted caches log messages store)
    (hfresh : ∀ message ∈ fresh, ∀ cache ∈ caches,
      message.path.getLast? ≠ some cache.2.endpoint.index) :
    Minted caches log (messages ++ fresh) store := by
  refine ⟨h.sorted, h.books, fun cache hcache => ?_⟩
  rw [ObjectCache.mail_other fun message hmem => hfresh message hmem cache hcache]
  exact h.puts cache hcache

/-- A table is put back as it was. -/
theorem keep (h : Minted caches log messages store) (hstock : tree.StockOf Q caches)
    {cache : AnyCache A} (hcache : cache ∈ caches)
    (hcaches : store.Rewrites after cache.2.slot (cache.2.table store)) :
    Minted caches log messages after := by
  have hsame : ∀ one : AnyCache A, one.2.table after = one.2.table store :=
    fun one => hcaches.tables_same one.2.slot one.1
  refine ⟨h.sorted.rewrites hstock.slots hcache hcaches, h.books.keep fun one _ => ?_,
    fun one hone => ?_⟩
  · rw [hsame]
    exact ⟨rfl, rfl⟩
  · rw [hsame]
    exact h.puts one hone

/-- An id is given out again. -/
theorem again (h : Minted caches log messages store) {entry : Assignment A}
    (hentry : ⟨entry.item, entry.cache⟩ ∈ caches)
    (hid : (entry.cache.table store).idOf? (entry.cache.codec.keyOf entry.object)
      = some entry.id) : Minted caches (log ++ [entry]) messages store := by
  obtain ⟨_, _, hfound, -⟩ := h.books.named _ hentry hid
  refine ⟨h.sorted, h.books.again hentry hid hfound, fun cache hcache => ?_⟩
  exact (h.puts cache hcache).imp fun _ _ hdelivers => hdelivers.append [entry]

/-- A new id is given out, and its put is sent. -/
theorem give (h : Minted caches log messages store) (hstock : tree.StockOf Q caches)
    {cache : AnyCache A} (hcache : cache ∈ caches) {object : A.Object cache.1}
    (hnew : (cache.2.table store).idOf? (cache.2.codec.keyOf object) = none)
    (hroom : (cache.2.table store).outgoing.length < cache.2.maxEntries.toNat)
    (hcaches : store.Rewrites after cache.2.slot
      ((cache.2.table store).assign (cache.2.codec.keyOf object)))
    {message : Sent} (hputs : message.Puts cache.2 object (cache.2.table store).nextId)
    (behind : Nat) :
    Minted caches (log ++ [⟨cache.1, cache.2, object, (cache.2.table store).nextId, behind⟩])
      (messages ++ [message]) after := by
  rw [(h.books.counted cache hcache).length] at hroom
  obtain ⟨hself, hothers⟩ := table_rewritten hstock hcache hcaches
  refine ⟨h.sorted.rewrites hstock.slots hcache hcaches,
    h.books.give hstock hcache hnew hroom hcaches behind, fun one hone => ?_⟩
  have hold := (h.puts one hone).imp fun _ _ hdelivers => hdelivers.append
    [⟨cache.1, cache.2, object, (cache.2.table store).nextId, behind⟩]
  by_cases hsame : one = cache
  · subst hsame
    have hlast : one.2.Delivers
        (log ++ [⟨one.1, one.2, object, (one.2.table store).nextId, behind⟩]) message
        (one.2.table store).nextId :=
      ⟨object, behind, Assignment.first?_new (h.books.free hstock hone), hputs⟩
    have hnext : (one.2.table after).nextId = (one.2.table store).nextId + 1 := by
      rw [hself]
      rfl
    rw [ObjectCache.mail_put hputs.ends, hnext, List.range_succ]
    exact List.rel_append hold (.cons hlast .nil)
  · have hends : ∀ one' ∈ [message], one'.path.getLast? ≠ some one.2.endpoint.index := by
      intro sent hsent
      rw [List.mem_singleton.mp hsent, hputs.ends]
      intro hindex
      exact hsame (hstock.endpoints one hone cache hcache (Option.some.inj hindex).symm)
    rw [ObjectCache.mail_other hends, hothers one hone hsame]
    exact hold

/-- What giving an object an id comes to, for the queue and for the caches. -/
theorem assigns (h : Minted caches log messages conn.caches) (hsent : conn.HasSent tree messages)
    (hstock : tree.StockOf Q caches) (htree : tree.WritesOn) {cache : AnyCache A}
    (hcache : cache ∈ caches) (hcodec : cache.2.codec.WritesOn) {env : A.Env}
    {object : A.Object cache.1} {answer : Except ProtocolError Nat} {final : Connection A}
    (hassigns : cache.2.Assigns env conn object answer final) (behind : Nat) :
    (∃ stored,
      final = { conn.sendAll (cache.2.attempts env conn object) with caches := stored }) ∧
    Minted caches (log ++ Assignment.given cache.2 object behind answer)
      (messages ++ conn.sent (cache.2.attempts env conn object)) final.caches := by
  unfold ObjectCache.attempts
  cases hassigns with
  | @refused cause stored hcaches hwhy =>
      obtain ⟨-, hfull, -⟩ := hwhy (h.sorted cache hcache)
      rw [if_neg fun hadmits => absurd hadmits.2 (Nat.not_lt.mpr hfull)]
      refine ⟨⟨stored, rfl⟩, ?_⟩
      simpa only [Assignment.given, Connection.sent, List.append_nil] using
        h.keep hstock hcache hcaches
  | @known id stored hid hcaches =>
      rw [if_neg fun hadmits => Option.some_ne_none id (hid.symm.trans hadmits.1)]
      refine ⟨⟨stored, rfl⟩, ?_⟩
      have hid : (cache.2.table stored).idOf? (cache.2.codec.keyOf object) = some id := by
        rw [show cache.2.table stored = cache.2.table conn.caches from hcaches.self]
        exact hid
      rw [Connection.sent, List.append_nil]
      exact (h.keep hstock hcache hcaches).again hcache hid
  | @failed cause stored released hcaches hnew hroom hsend =>
      rw [(h.books.counted cache hcache).release_eq] at hcaches
      have hmake := ObjectCache.putting_error hsend
      rw [if_pos ⟨hnew, hroom⟩, Connection.sent_error hmake, Connection.sendAll_error hmake]
      refine ⟨⟨released, rfl⟩, ?_⟩
      simpa only [Assignment.given, List.append_nil] using h.keep hstock hcache hcaches
  | @fresh stored _ hnew hroom hcaches hput =>
      obtain ⟨made, hmake, rfl⟩ := ObjectCache.putting_ok hput.sendValue_eq
      obtain rfl := hsent.same
      obtain ⟨message, queued, hmessage, -⟩ := Attempt.make_ok hsent.handed hsent.field htree
        (ObjectCache.put_writesOn hcodec env _ object) hmake
      rw [if_pos ⟨hnew, hroom⟩, Connection.sent_ok hmake hmessage, Connection.sendAll_ok hmake]
      refine ⟨⟨stored, rfl⟩, ?_⟩
      exact h.give hstock hcache hnew hroom hcaches
        (ObjectCache.putting_message hstock hcache hmessage) behind

/-- A message to an endpoint of the program is attempted. -/
theorem sends (h : Minted caches log messages conn.caches) (attempt : Attempt A)
    (hother : ∀ cache ∈ caches, attempt.endpoint ≠ cache.2.endpoint.index) :
    Minted caches log (messages ++ conn.sent [attempt]) (conn.sendAll [attempt]).caches := by
  obtain ⟨_, _, _, hframe⟩ := conn.afterSend_frame attempt.env attempt.endpoint attempt.value
    attempt.chosen attempt.priority attempt.payload
  have hcaches : (conn.sendAll [attempt]).caches = conn.caches := by
    show (conn.afterSend (attempt.make conn)).caches = conn.caches
    unfold Attempt.make
    rw [hframe]
  rw [hcaches]
  refine h.post fun message hmem cache hcache hends => ?_
  have hend := Connection.sent_ends message hmem
  exact hother cache hcache (Option.some.inj (hend.symm.trans hends))

/-- **What an action comes to**: it makes its attempts, and the caches are kept. -/
theorem perform (h : Minted caches log messages conn.caches) (hsent : conn.HasSent tree messages)
    (hstock : tree.StockOf Q caches) (htree : tree.WritesOn)
    (hcodecs : ∀ cache ∈ caches, cache.2.codec.WritesOn) {action : Action A}
    (haction : action.Ordinary caches) (behind : Nat) :
    (∃ stored,
      action.perform conn = { conn.sendAll (action.attempts conn) with caches := stored }) ∧
    Minted caches (log ++ action.assigned conn behind)
      (messages ++ conn.sent (action.attempts conn)) (action.perform conn).caches := by
  cases action with
  | @send _ type env endpoint value priority payload =>
      rw [Action.assigned, List.append_nil]
      exact ⟨⟨_, rfl⟩,
        h.sends ⟨env, endpoint.index, ⟨type, value⟩, none, priority, payload⟩ haction.2⟩
  | @sendLinked _ type _ env endpoint value link priority payload =>
      rw [Action.assigned, List.append_nil]
      exact ⟨⟨_, rfl⟩,
        h.sends ⟨env, endpoint.index, ⟨type, value⟩, some link.choice, priority, payload⟩ haction.2⟩
  | @signal type env endpoint value =>
      rw [Action.assigned, List.append_nil]
      exact ⟨⟨_, rfl⟩,
        h.sends ⟨env, endpoint.index, ⟨type, value⟩, none, .normal, .nothing⟩ haction⟩
  | assign env cache object =>
      exact h.assigns hsent hstock htree haction (hcodecs _ haction)
        (cache.assign_assigns env conn object rfl) behind

end Minted

/-- Attempts of an action write on, as the action does. -/
theorem Action.WritesOn.attempts_writesOn {action : Action A} (h : action.WritesOn)
    (conn : Connection A) : ∀ attempt ∈ action.attempts conn, attempt.payload.WritesOn := by
  intro attempt hmem
  cases action with
  | send | sendLinked =>
      rw [List.mem_singleton.mp hmem]
      exact h
  | signal =>
      rw [List.mem_singleton.mp hmem]
      exact Payload.nothing_writesOn
  | assign env cache object =>
      have hmem : attempt ∈ cache.attempts env conn object := hmem
      unfold ObjectCache.attempts at hmem
      split at hmem
      · rw [List.mem_singleton.mp hmem]
        exact ObjectCache.put_writesOn h env _ object
      · cases hmem

namespace Connection

variable {Q : Callback A Unit → Prop} {tree : Tree A} {caches : List (AnyCache A)}

/-- **Whatever is done, and whether it fails or not**, the queue and the caches go on together. -/
theorem performAll_minted (hstock : tree.StockOf Q caches) (htree : tree.WritesOn)
    (hcodecs : ∀ cache ∈ caches, cache.2.codec.WritesOn) (actions : List (Action A)) :
    ∀ {conn : Connection A} {log : List (Assignment A)} {messages : List Sent},
      conn.HasSent tree messages → Minted caches log messages conn.caches →
      (∀ action ∈ actions, action.Ordinary caches) →
        (conn.performAll actions).HasSent tree (messages ++ conn.messages actions) ∧
          Minted caches (log ++ conn.givenOut actions) (messages ++ conn.messages actions)
            (conn.performAll actions).caches := by
  induction actions with
  | nil =>
      intro conn log messages hsent h _
      rw [Connection.messages, givenOut, List.append_nil, List.append_nil]
      exact ⟨hsent, h⟩
  | cons action rest ih =>
      intro conn log messages hsent h hactions
      obtain ⟨haction, hrest⟩ := List.forall_mem_cons.mp hactions
      obtain ⟨⟨stored, hperform⟩, hnext⟩ := h.perform hsent hstock htree hcodecs haction
        (action.perform conn).outbox.length
      have hmore := hsent.more htree ((haction.writesOn hcodecs).attempts_writesOn conn) stored
      rw [← hperform] at hmore
      rw [Connection.messages, givenOut, ← List.append_assoc, ← List.append_assoc]
      exact ih hmore hnext hrest

end Connection

/-! ### What it means for the ids -/

namespace ObjectCache

variable {item : A.Item}

/-- The keys of the objects that were given an id. -/
def keysIn (cache : ObjectCache A item) (log : List (Assignment A)) : Set (A.ObjectKey item) :=
  {key | ∃ object id behind, ⟨item, cache, object, id, behind⟩ ∈ log ∧
    cache.codec.keyOf object = key}

/-- What is promised of the table of a cache, if the ids of `log` were given out and `messages`
were sent. -/
structure Numbers (cache : ObjectCache A item) (log : List (Assignment A)) (messages : List Sent)
    (table : CacheTable A item) : Prop where
  /-- The keys that were given an id stand one to one for the ids below the next one. -/
  bijection : Set.BijOn table.idOf? (cache.keysIn log) (some '' Set.Iio table.nextId)
  counted : table.outgoing.map (·.2) = List.range table.nextId
  room : table.nextId ≤ cache.maxEntries.toNat
  /-- Two objects were given one id exactly if they have one key. -/
  same : ∀ {object other id another behind later}, ⟨item, cache, object, id, behind⟩ ∈ log →
    ⟨item, cache, other, another, later⟩ ∈ log →
      (id = another ↔ cache.codec.keyOf object = cache.codec.keyOf other)
  /-- The messages to the endpoint of the cache are the puts of its ids, in order. -/
  puts : List.Forall₂ (cache.Delivers log) (cache.mail messages) (List.range table.nextId)

end ObjectCache

namespace Minted

variable {Q : Callback A Unit → Prop} {tree : Tree A} {conn : Connection A}
  {caches : List (AnyCache A)} {log : List (Assignment A)} {messages : List Sent}
  {store : CacheStore A}

/-- A key is in the table if its object was given an id. -/
theorem idOf?_of_mem (h : Minted caches log messages store) {cache : AnyCache A}
    {object : A.Object cache.1} {id behind : Nat}
    (hmem : ⟨cache.1, cache.2, object, id, behind⟩ ∈ log) :
    (cache.2.table store).idOf? (cache.2.codec.keyOf object) = some id :=
  (h.books.logged _ hmem).2

/-- A key that is in the table was given its id. -/
theorem mem_of_idOf? (h : Minted caches log messages store) {cache : AnyCache A}
    (hcache : cache ∈ caches) {key : A.ObjectKey cache.1} {id : Nat}
    (hid : (cache.2.table store).idOf? key = some id) : key ∈ cache.2.keysIn log := by
  obtain ⟨object, behind, hfirst, hkey⟩ := h.books.named cache hcache hid
  exact ⟨object, id, behind, (Assignment.first?_some hfirst).1, hkey⟩

/-- An id stands for one key. -/
theorem key_unique (h : Minted caches log messages store) {cache : AnyCache A}
    (hcache : cache ∈ caches) {key other : A.ObjectKey cache.1} {id : Nat}
    (hid : (cache.2.table store).idOf? key = some id)
    (hother : (cache.2.table store).idOf? other = some id) : key = other := by
  obtain ⟨object, behind, hfirst, rfl⟩ := h.books.named cache hcache hid
  obtain ⟨same, later, hsame, rfl⟩ := h.books.named cache hcache hother
  cases hfirst.symm.trans hsame
  rfl

/-- Every id below the next one was given out. -/
theorem given_of_lt (h : Minted caches log messages store) {cache : AnyCache A}
    (hcache : cache ∈ caches) {id : Nat} (hid : id < (cache.2.table store).nextId) :
    ∃ object behind, ⟨cache.1, cache.2, object, id, behind⟩ ∈ log := by
  have hputs := h.puts cache hcache
  have hlength : id < (List.range (cache.2.table store).nextId).length := by
    rwa [List.length_range]
  obtain ⟨object, behind, hfirst, -⟩ := hputs.get (hputs.length_eq ▸ hlength) hlength
  rw [List.get_eq_getElem, List.getElem_range] at hfirst
  exact ⟨object, behind, (Assignment.first?_some hfirst).1⟩

theorem numbers (h : Minted caches log messages store) {cache : AnyCache A}
    (hcache : cache ∈ caches) :
    cache.2.Numbers log messages (cache.2.table store) := by
  have hcounted := h.books.counted cache hcache
  constructor
  case bijection =>
    refine ⟨?_, ?_, ?_⟩
    · rintro key ⟨object, id, behind, hmem, rfl⟩
      have hid := h.idOf?_of_mem hmem
      exact ⟨id, hcounted.lt hid, hid.symm⟩
    · rintro key ⟨object, id, behind, hmem, rfl⟩ other - hsame
      have hid := h.idOf?_of_mem hmem
      exact h.key_unique hcache hid (hsame.symm.trans hid)
    · rintro _ ⟨id, hid, rfl⟩
      obtain ⟨object, behind, hmem⟩ := h.given_of_lt hcache hid
      exact ⟨_, ⟨object, id, behind, hmem, rfl⟩, h.idOf?_of_mem hmem⟩
  case counted => exact hcounted
  case room => exact h.books.room cache hcache
  case same =>
    intro object other id another behind later hone hother
    have hid := h.idOf?_of_mem hone
    have hanother := h.idOf?_of_mem hother
    constructor
    · rintro rfl
      exact h.key_unique hcache hid hanother
    · intro hkey
      rw [hkey] at hid
      exact Option.some.inj (hid.symm.trans hanother)
  case puts => exact h.puts cache hcache

/-- A call that fails leaves the connection as it was; only a slot may have been opened. -/
theorem assigns_error (h : Minted caches log messages conn.caches) {cache : AnyCache A}
    (hcache : cache ∈ caches) {env : A.Env} {object : A.Object cache.1} {cause : ProtocolError}
    {final : Connection A} (hassigns : cache.2.Assigns env conn object (.error cause) final) :
    ∃ stored, final = { conn with caches := stored } ∧
      ∀ slot kind, stored.tableAt slot kind = conn.caches.tableAt slot kind := by
  cases hassigns with
  | @refused _ stored hcaches _ => exact ⟨stored, rfl, hcaches.tables_same⟩
  | @failed _ _ released hcaches _ _ _ =>
      rw [(h.books.counted cache hcache).release_eq] at hcaches
      exact ⟨released, rfl, hcaches.tables_same⟩

/-- A new object is given the next id if there is one left and its put can be sent. -/
theorem assigns_new (h : Minted caches log messages conn.caches) {cache : AnyCache A}
    (hcache : cache ∈ caches) {env : A.Env} {object : A.Object cache.1}
    (hnew : cache.2.codec.keyOf object ∉ cache.2.keysIn log) {answer : Except ProtocolError Nat}
    {final : Connection A} (hassigns : cache.2.Assigns env conn object answer final) :
    answer = if cache.2.maxEntries.toNat ≤ (cache.2.table conn.caches).nextId
      then .error (.cacheFull cache.2.name cache.2.maxEntries.toNat)
      else ((cache.2.putting env (cache.2.table conn.caches).nextId object).make conn).map
        fun _ => (cache.2.table conn.caches).nextId := by
  have hlength := (h.books.counted cache hcache).length
  cases hassigns with
  | refused _ hwhy =>
      obtain ⟨-, hfull, rfl⟩ := hwhy (h.sorted cache hcache)
      rw [hlength] at hfull
      rw [if_pos hfull]
  | known hid _ => exact absurd (h.mem_of_idOf? hcache hid) hnew
  | failed _ _ hroom hsend =>
      rw [hlength] at hroom
      rw [if_neg (Nat.not_le.mpr hroom), ObjectCache.putting_error hsend]
      rfl
  | fresh _ hroom _ hput =>
      obtain ⟨made, hmake, -⟩ := ObjectCache.putting_ok hput.sendValue_eq
      rw [hlength] at hroom
      rw [if_neg (Nat.not_le.mpr hroom), hmake]
      rfl

end Minted

/-- What is known of the ids that a fresh connection gives out in the course of some actions. -/
structure Connection.IdsTraced (fresh : Connection A) (caches : List (AnyCache A))
    (actions : List (Action A)) : Prop where
  /-- The messages that are sent are what is queued, in order, and each new path behind one
  announce for the next id. -/
  queued : Trace fresh.tree fresh.ids.maxId [] (fresh.messages actions)
    (fresh.performAll actions).outbox
  numbers : ∀ cache ∈ caches, cache.2.Numbers (fresh.givenOut actions) (fresh.messages actions)
    (cache.2.table (fresh.performAll actions).caches)
  /-- An object that is as good as one with an id is given this id, whatever ids are left, and
  nothing else happens. -/
  known : ∀ entry ∈ fresh.givenOut actions, ∀ env (object : A.Object entry.item),
    entry.cache.codec.keyOf object = entry.cache.codec.keyOf entry.object →
      entry.cache.assign env (fresh.performAll actions) object
        = (.ok entry.id, fresh.performAll actions)
  /-- A new object is given the next id if there is one left and its put can be sent. -/
  new : ∀ cache ∈ caches, ∀ env object,
    cache.2.codec.keyOf object ∉ cache.2.keysIn (fresh.givenOut actions) →
      (cache.2.assign env (fresh.performAll actions) object).1 =
        let id := (cache.2.table (fresh.performAll actions).caches).nextId
        if cache.2.maxEntries.toNat ≤ id
        then .error (.cacheFull cache.2.name cache.2.maxEntries.toNat)
        else ((cache.2.putting env id object).make (fresh.performAll actions)).map fun _ => id
  /-- A call that fails leaves the ids of paths, the queue and every table as they were. -/
  refused : ∀ cache ∈ caches, ∀ env object cause,
    (cache.2.assign env (fresh.performAll actions) object).1 = .error cause →
      ∃ stored, (cache.2.assign env (fresh.performAll actions) object).2
          = { fresh.performAll actions with caches := stored } ∧
        ∀ slot kind, stored.tableAt slot kind
          = (fresh.performAll actions).caches.tableAt slot kind

/-- **Ids are given out one for each key, and put one after the other.**  Whatever objects are
given ids in whatever caches, between whatever other messages and whether it fails or not, the
ids of a cache count up from zero with its keys, and each is put once. -/
theorem ids_traced {revision : Revision} {allowed : List (Handle A) → BuilderCall A → Prop}
    {builder : TreeBuilder A} {handles : List (Handle A)} {caches : List (AnyCache A)}
    (hstocked : Stocked revision allowed builder handles caches)
    (htree : builder.build.WritesOn) (hcodecs : ∀ cache ∈ caches, cache.2.codec.WritesOn)
    (label : String) (attachment : Option (Value A)) (actions : List (Action A))
    (hactions : ∀ action ∈ actions, action.Ordinary caches) :
    (Connection.new builder.build label attachment).IdsTraced caches actions := by
  have hstock : builder.build.StockOf (fun _ => True) caches :=
    (hstocked.stock fun _ call _ => call.does_any).tree
  obtain ⟨hsent, hminted⟩ := Connection.performAll_minted hstock htree hcodecs actions
    (.start builder.build label attachment) (.start caches) hactions
  rw [List.nil_append] at hsent hminted
  constructor
  case queued =>
    have htrace := hsent.trace
    rw [hsent.limit] at htrace
    exact htrace
  case numbers => exact fun cache hcache => hminted.numbers hcache
  case known =>
    intro entry hentry env object hkey
    refine ObjectCache.assign_known ?_ env
    rw [hkey]
    exact (hminted.books.logged entry hentry).2
  case new =>
    intro cache hcache env object hnew
    exact hminted.assigns_new hcache hnew (cache.2.assign_assigns env _ object rfl)
  case refused =>
    intro cache hcache env object cause herror
    have hassigns := cache.2.assign_assigns env
      ((Connection.new builder.build label attachment).performAll actions) object rfl
    rw [herror] at hassigns
    exact hminted.assigns_error hcache hassigns

/-! The things again, one of which has a name that cannot be written. -/

namespace Things

open Scenario (app CacheKind)

/-- A thing is given an id. -/
def name (kind : String) (damage : UInt16) : Action app :=
  .assign ({} : Scenario.Names) cache ⟨kind, damage⟩

/-- A sword, something without a proper name, an axe and another sword are given ids. -/
def namings : List (Action app) :=
  [name "sword" 1, name (String.ofList (List.replicate 65 'x')) 0, name "axe" 2, name "sword" 3]

/-- The thing without a proper name takes no id, and the second sword has that of the first. -/
theorem swords_numbered :
    (Connection.new builder.build "peer" none).IdsTraced [⟨CacheKind.item, cache⟩] namings ∧
      ((Connection.new builder.build "peer" none).givenOut namings).map (·.id) = [0, 1, 0] ∧
      ((Connection.new builder.build "peer" none).performAll namings).outbox.map
        (fun out => messageTag? out.bytes) = [some 0, some 3, some 3] := by
  have hcodecs : ∀ one ∈ [(⟨CacheKind.item, cache⟩ : AnyCache app)], one.2.codec.WritesOn := by
    intro one hone
    rw [List.mem_singleton.mp hone]
    exact codec_readsBack.writesOn
  have hnamings : ∀ action ∈ namings, action.Ordinary [⟨CacheKind.item, cache⟩] := by
    simp [namings, name, Action.Ordinary]
  exact ⟨ids_traced stocked tree_writesOn hcodecs "peer" none namings hnamings,
    by decide +kernel, by decide +kernel⟩

end Things

end PathWire
