/-
Whatever a peer sends, its refusal is the peer's own fault.

A refusal is the local side's fault if a value was not of the type that its user expects, if a node
was not found, or if something impossible was asked for.  None of it can come of a message.  A bound
path leads down the tree, so its nodes are found and its keys are read one below the other, each of
the type that the next one starts from, and the last of the type that the endpoint takes.  What the
application's callbacks refuse is theirs to answer for, and careful ones refuse for what they have
read only.
-/
import PathWire.Proofs.Peer.Careful
import PathWire.Proofs.Peer.Fidelity
import PathWire.Proofs.Peer.Hostile
import PathWire.Proofs.Tree.Descent

namespace PathWire

variable {A : Application}

/-! ### Results -/

/-- A result that is refused through no fault of the local side only. -/
def Result.Fair {α : Type} (result : Except ProtocolError α) : Prop :=
  ∀ cause, result = .error cause → cause.Blameless

namespace Result

open ProtocolError (blameless_of_malformed)

variable {α β : Type}

theorem fair_ok (answer : α) : Fair (.ok answer) := by
  intro cause h
  cases h

theorem fair_refuse {cause : ProtocolError} (h : cause.kind = .malformed) :
    Fair (.error cause : Except ProtocolError α) := by
  intro other hother
  cases hother
  exact blameless_of_malformed h

theorem Fair.bind {first : Except ProtocolError α} {next : α → Except ProtocolError β}
    (h : Fair first) (hnext : ∀ answer, first = .ok answer → Fair (next answer)) :
    Fair (first >>= next) := by
  cases first with
  | ok answer => exact hnext answer rfl
  | error cause =>
      intro other hother
      cases hother
      exact h cause rfl

end Result

open Result (Fair fair_ok fair_refuse)

namespace IdTables

theorem fair_checkId (ids : IdTables) (id : Nat) : Fair (ids.checkId id) := by
  unfold checkId
  by_cases hreserved : id < firstAllocatedId
  · rw [if_pos hreserved]
    exact fair_refuse rfl
  · rw [if_neg hreserved]
    by_cases hrange : ids.maxId < id
    · rw [if_pos hrange]
      exact fair_refuse rfl
    · rw [if_neg hrange]
      exact fair_ok ()

theorem fair_register (ids : IdTables) (id : Nat) (path : ResolvedPath) :
    Fair (ids.register id path) := by
  refine (ids.fair_checkId id).bind fun _ _ => ?_
  cases hbound : ids.bound? id with
  | none => exact fair_ok _
  | some existing =>
      by_cases hsame : existing.path = path.path
      · simp only [if_pos hsame]
        exact fair_ok _
      · simp only [if_neg hsame]
        exact fair_refuse rfl

theorem fair_lookup (ids : IdTables) (id : Nat) : Fair (ids.lookup id) := by
  refine (ids.fair_checkId id).bind fun _ _ => ?_
  cases hbound : ids.bound? id with
  | none => exact fair_refuse rfl
  | some path => exact fair_ok path

/-- What is looked up is bound. -/
theorem bound?_of_lookup {ids : IdTables} {id : Nat} {path : ResolvedPath}
    (h : ids.lookup id = .ok path) : ids.bound? id = some path := by
  obtain ⟨⟨⟩, -, h⟩ := Result.of_bind_ok h
  cases hbound : ids.bound? id with
  | none => simp [hbound] at h
  | some found =>
      simp only [hbound] at h
      cases h
      rfl

end IdTables

/-- A node that is there is found. -/
theorem Tree.fair_node {tree : Tree A} {index : NodeIndex} {node : Node A}
    (h : tree.node? index = some node) : Fair (tree.node index) := by
  rw [Tree.node_of_node? h]
  exact fair_ok node

namespace ResolvedPath

variable {tree : Tree A}

theorem fair_walk (names : List String) : ∀ (above : List NodeIndex) (last : NodeIndex),
    Fair (walk tree above last names) := by
  induction names with
  | nil => exact fun above last => fair_ok _
  | cons name rest ih =>
      intro above last
      unfold walk
      cases tree.child? last name with
      | some child => exact ih _ child
      | none => exact fair_refuse rfl

/-- A path that is not found is not in the tree. -/
theorem fair_ofNames (hshaped : tree.Shaped) (names : List String) :
    Fair (ofNames tree names) := by
  unfold ofNames
  by_cases hdeep : tree.revision.maxPathDepth < names.length
  · simp only [if_pos hdeep]
    exact fair_refuse rfl
  simp only [if_neg hdeep]
  refine (fair_walk names [] .root).bind fun ⟨nodes, last⟩ hwalk => ?_
  obtain ⟨below, rfl, hdescends, -⟩ := walk_ok names hwalk
  cases tree.isEndpoint last with
  | true =>
      simp only [if_true]
      obtain ⟨keys, hkeys⟩ := carriers_of_descends hshaped _ hdescends
      rw [ofNodes, hkeys]
      exact fair_ok _
  | false =>
      simp only [Bool.false_eq_true, if_false]
      exact fair_refuse rfl

end ResolvedPath

/-! ### Keys

By induction on the path: the value at hand suits the node that was passed last. -/

theorem Value.fair_as {value : Value A} {type : ContextType A} (h : type = value.type) :
    Fair (value.as type) := by
  subst h
  have hdata : value.as value.type = .ok value.data := Value.as_eq.mpr rfl
  rw [hdata]
  exact fair_ok value.data

theorem Carrier.fair_expecting {α : Type} {result : Except ProtocolError α} (h : Fair result) :
    MessageReader.Fair (expecting result) fun answer => result = .ok answer := by
  cases result with
  | ok answer => exact .pure rfl
  | error cause => exact .refuse (h cause rfl)

/-- A careful carrier below a value that it starts from gives a value that its children see. -/
theorem Carrier.fair_read {carrier : Carrier A} (hcareful : carrier.Careful) {above : Value A}
    (habove : carrier.upper = above.type) (env : A.Env) (attached : Option (Value A)) :
    MessageReader.Fair (carrier.read env above attached)
      fun found => ∀ value, found = some value → value.type = carrier.lower := by
  have hgiven : ∀ {child : ContextType A} (found : Option child.El) (value : Value A),
      found.map (Value.mk child) = some value → value.type = child := by
    intro child found value hvalue
    obtain ⟨data, -, rfl⟩ := Option.map_eq_some_iff.mp hvalue
    rfl
  cases carrier with
  | key codec =>
      refine (fair_expecting (Value.fair_as habove)).bind fun data _ => ?_
      exact (hcareful env data).fair.map fun found _ => hgiven found
  | view narrow widen =>
      exact (fair_expecting (Value.fair_as habove)).map fun data _ => hgiven (narrow env data)
  | attachment supply => exact .pure (hgiven _)
  | link name childOf =>
      exact (fair_expecting (Value.fair_as habove)).map fun data _ => hgiven (childOf env data)

section Tree

variable {revision : Revision} {builder : TreeBuilder A} {handles : List (Handle A)}
  {caches : List (AnyCache A)}

/-- **The keys of a path are read through no fault of the local side**, and if all have a value
then the last one suits the path's last node. -/
theorem Connection.fair_readKeys
    (hbuilt : Built revision (BuilderCall.Proper caches) builder handles) (env : A.Env)
    (attached : Option (Value A)) (nodes : List NodeIndex) :
    ∀ {above : NodeIndex} {value : Value A} {keys : List NodeIndex},
      builder.build.Descends above nodes → ResolvedPath.carriers builder.build nodes = .ok keys →
      builder.Suits handles above value →
      MessageReader.Fair (readKeys builder.build env attached value keys) fun read =>
        read.absent = [] → builder.Suits handles (nodes.getLast?.getD above) read.lowest := by
  have hshaped := hbuilt.shaped
  have htyped := (hbuilt.mono fun _ _ h => h.honest).typed
  induction nodes with
  | nil =>
      intro above value keys _ hkeys hsuits
      cases hkeys
      exact .pure fun _ => hsuits
  | cons index rest ih =>
      intro above value keys hdescends hkeys hsuits
      obtain ⟨hchild, hrest⟩ := hdescends
      obtain ⟨node, hnode, hkeys⟩ := Result.of_bind_ok hkeys
      obtain ⟨below, hbelow, hkeys⟩ := Result.of_bind_ok hkeys
      have hnode := Tree.node_ok hnode
      simp only [List.getLast?_cons, Option.getD_some]
      cases hcarrier : node.kind.carrier? with
      | none =>
          simp only [hcarrier] at hkeys
          cases hkeys
          exact ih hrest hbelow (hsuits.plain hshaped htyped hchild hnode hcarrier)
      | some carrier =>
          simp only [hcarrier] at hkeys
          cases hkeys
          have hcareful : carrier.Careful :=
            hbuilt.careful_carrier (fun _ _ h => h.careful) hnode hcarrier
          have hupper := hsuits.upper hshaped htyped hchild hnode hcarrier
          refine (Carrier.fair_expecting (Tree.fair_node hnode)).bind fun same hsame => ?_
          cases hnode.symm.trans (Tree.node_ok hsame)
          simp only [hcarrier]
          refine (Carrier.fair_read hcareful hupper env attached).bind fun found hvalue => ?_
          cases found with
          | none => exact .pure fun habsent => by cases habsent
          | some value =>
              have hlower := TreeBuilder.suits_lower hbuilt htyped hnode hcarrier
                (hvalue value rfl)
              exact (ih hrest hbelow hlower).map fun read hread => hread

/-- A careful program's decoders and those of the caches. -/
theorem Stocked.fair_decode (hstocked : Stocked revision (BuilderCall.Proper caches) builder
    handles caches) {index : NodeIndex} {node : Node A}
    (hnode : builder.build.node? index = some node) {endpoint : EndpointDef A}
    (hendpoint : node.kind.endpoint? = some endpoint) (env : A.Env) (value : endpoint.type.El)
    (ctx : MessageContext A) : Callback.Fair caches (endpoint.decode env value ctx) := by
  have hstock := hstocked.careful_stock
  rcases hstock.kept hnode hendpoint with hdoes | ⟨cache, hcache, rfl⟩
  · exact (hdoes env value ctx).fair
  · obtain ⟨housed, ⟨same, _, hsame, hkind, -⟩, -, htakes⟩ := hstock.housed cache hcache
    cases hnode.symm.trans hsame
    rw [hkind] at hendpoint
    cases hendpoint
    have hcodec := hstocked.careful_codec (fun _ _ h => h.careful) cache hcache
    rw [htakes env value ctx]
    exact ObjectCache.fair_takePut hstock.slots hcache hcodec env

/-! ### One message -/

namespace Connection

/-- A connection on which ids are bound to paths of the tree only, and every cache can keep its
objects. -/
structure Sound (tree : Tree A) (caches : List (AnyCache A)) (conn : Connection A) : Prop where
  same : conn.tree = tree
  paths : ∀ {id : Nat} {resolved : ResolvedPath}, conn.ids.bound? id = some resolved →
    tree.Passable resolved.path ∧ ResolvedPath.ofNodes tree resolved.path = .ok resolved
  sorted : conn.caches.Sorted caches

theorem sound_new (tree : Tree A) (caches : List (AnyCache A)) (label : String)
    (attachment : Option (Value A)) : (new tree label attachment).Sound tree caches where
  same := rfl
  paths h := by cases h
  sorted := CacheStore.sorted_empty caches

/-- What comes of a message: a sound connection, and no refusal that is the local side's fault. -/
structure Received.Fair (tree : Tree A) (caches : List (AnyCache A)) (received : Received A) :
    Prop where
  sound : received.conn.Sound tree caches
  outcome : Result.Fair received.outcome

variable {conn : Connection A} {tree : Tree A}

theorem Sound.fair_refused (h : conn.Sound tree caches) {cause : ProtocolError}
    (hcause : cause.Blameless) : (conn.refused cause).Fair tree caches where
  sound := h
  outcome other hother := by
    cases hother
    exact hcause

/-- An announce is refused if it cannot be read, or leads nowhere, or takes an id that is not
free. -/
theorem Sound.fair_receiveAnnounce (h : conn.Sound tree caches) (hshaped : tree.Shaped)
    (hroot : tree.isEndpoint .root = false) (dec : Decoder) :
    (conn.receiveAnnounce dec).Fair tree caches := by
  unfold receiveAnnounce
  rw [h.same]
  cases hread : readAnnounce tree.revision dec with
  | error cause behind =>
      exact h.fair_refused ((fair_readAnnounce tree.revision).error trivial hread).2
  | ok announced behind =>
      obtain ⟨id, names⟩ := announced
      simp only
      cases hnames : ResolvedPath.ofNames tree names with
      | error cause =>
          exact h.fair_refused (ResolvedPath.fair_ofNames hshaped names cause hnames)
      | ok path =>
          simp only
          cases hregister : conn.ids.register id path with
          | error cause => exact h.fair_refused (conn.ids.fair_register id path cause hregister)
          | ok registered =>
              obtain ⟨found, ids⟩ := registered
              refine ⟨⟨rfl, ?_, h.sorted⟩, fair_ok _⟩
              rcases IdTables.register_cases hregister with rfl | ⟨-, -, -, rfl⟩
              · exact h.paths
              · exact fun hbound => IdTables.forall_bound_bind h.paths
                  (ResolvedPath.ofNames_ok hroot hnames).1 id hbound

/-- A path that messages can travel on ends at an endpoint. -/
theorem fair_endpointOf {path : ResolvedPath} (h : tree.Passable path.path) (id : Nat) :
    Fair (endpointOf tree id path) := by
  obtain ⟨index, hlast, hendpoint⟩ := h.ends
  cases hnode : tree.node? index with
  | none => simp [Tree.isEndpoint, hnode] at hendpoint
  | some node =>
      unfold endpointOf
      simp only [hlast]
      rw [Result.bind_ok (Tree.node_of_node? hnode)]
      cases node.kind.endpoint? with
      | none => exact fair_refuse rfl
      | some endpoint => exact fair_ok endpoint

section Receive

variable (hstocked : Stocked revision (BuilderCall.Proper caches) builder handles caches)
  (h : conn.Sound builder.build caches) {index : NodeIndex} {node : Node A}
  {endpoint : EndpointDef A} (hnode : builder.build.node? index = some node)
  (hendpoint : node.kind.endpoint? = some endpoint)

include hstocked h hnode hendpoint

/-- A handler answers for its own refusals. -/
theorem Sound.fair_reportMissing (env : A.Env) (id : Nat) (path : ResolvedPath)
    (read : ReadKeys A) :
    (conn.reportMissing env endpoint id path read).Fair builder.build caches := by
  unfold reportMissing
  cases hmissing : endpoint.onMissing with
  | none => exact ⟨h, fair_ok _⟩
  | some handler =>
      refine ⟨h, fun cause hcause => ?_⟩
      have hcareful := hstocked.built.careful_handler (fun _ _ h => h.careful) hnode hendpoint
        hmissing
      refine hcareful env ⟨read.absent, read.absent.map conn.tree.name⟩
        (conn.readContext id path read.values) conn.caches cause ?_
      cases hresult : (handler env ⟨read.absent, read.absent.map conn.tree.name⟩
          (conn.readContext id path read.values) conn.caches).result with
      | ok done =>
          simp only [hresult] at hcause
          cases hcause
      | error own =>
          simp only [hresult] at hcause
          cases hcause
          rfl

/-- A decoder is given a value of the type that it takes, and it is refused for what it reads. -/
theorem Sound.fair_dispatch (env : A.Env) (id : Nat) (path : ResolvedPath) {read : ReadKeys A}
    (hsuits : builder.Suits handles index read.lowest) (dec : Decoder) :
    (conn.dispatch env endpoint id path read dec).Fair builder.build caches := by
  have hvalue : Fair (read.lowest.as endpoint.type) :=
    Value.fair_as (hsuits.taken hnode hendpoint)
  unfold dispatch
  cases hdata : read.lowest.as endpoint.type with
  | error cause => exact h.fair_refused (hvalue cause hdata)
  | ok value =>
      simp only
      have hdecode := hstocked.fair_decode hnode hendpoint env value
        (conn.readContext id path read.values)
      cases hdecoded : endpoint.decode env value (conn.readContext id path read.values)
          ⟨dec, conn.caches, []⟩ with
      | error cause state =>
          obtain ⟨hsorted, hcause⟩ := hdecode.error h.sorted hdecoded
          exact ⟨⟨h.same, h.paths, hsorted⟩, fun other hother => by cases hother; exact hcause⟩
      | ok done state =>
          obtain ⟨hsorted, -⟩ := hdecode.ok h.sorted hdecoded
          refine ⟨⟨h.same, h.paths, hsorted⟩, ?_⟩
          by_cases hleft : state.decoder.remaining = 0
          · simp only [if_pos hleft]
            exact fair_ok _
          · simp only [if_neg hleft]
            exact fair_refuse rfl

omit hnode hendpoint

/-- A message on a bound path. -/
theorem Sound.fair_receiveOn (env : A.Env) {id : Nat} {path : ResolvedPath}
    (hbound : conn.ids.bound? id = some path) (dec : Decoder) :
    (conn.receiveOn env id path dec).Fair builder.build caches := by
  obtain ⟨hpassable, hresolved⟩ := h.paths hbound
  obtain ⟨keys, hkeys, hresolved⟩ := Result.of_bind_ok hresolved
  obtain rfl : path.keys = keys := by rw [← Except.ok.inj hresolved]
  unfold receiveOn
  rw [h.same]
  cases hfound : endpointOf builder.build id path with
  | error cause => exact h.fair_refused (fair_endpointOf hpassable id cause hfound)
  | ok endpoint =>
      obtain ⟨index, node, hlast, hnode, hendpoint⟩ := endpointOf_ok hfound
      obtain ⟨root, hroot, hkind⟩ := hstocked.careful_stock.root
      have htyped := (hstocked.built.mono fun _ _ h => h.honest).typed
      have hkeys := fair_readKeys hstocked.built env conn.attachment path.path
        hpassable.descends hkeys (htyped.suits_root hroot hkind)
      simp only
      cases hread : readKeys builder.build env conn.attachment .unit path.keys dec with
      | error cause behind => exact h.fair_refused (hkeys.error trivial hread).2
      | ok read behind =>
          simp only
          cases habsent : read.absent with
          | nil =>
              have hsuits := (hkeys.ok trivial hread).2 habsent
              rw [hlast, Option.getD_some] at hsuits
              exact h.fair_dispatch hstocked hnode hendpoint env id path hsuits behind
          | cons missing rest =>
              exact h.fair_reportMissing hstocked hnode hendpoint env id path read

/-- **A message is refused through no fault of the local side only**, and the connection stays
sound. -/
theorem Sound.fair_receive (env : A.Env) (message : Bytes) :
    (conn.receive env message).Fair builder.build caches := by
  unfold receive
  cases htag : Reader.u32 (.ofBytes message) with
  | error cause dec => exact h.fair_refused (Reader.Method.u32.fair.error trivial htag).2
  | ok tag dec =>
      by_cases hannounce : tag.toNat = announceTag
      · simp only [if_pos hannounce]
        obtain ⟨root, hroot, hkind⟩ := hstocked.careful_stock.root
        refine h.fair_receiveAnnounce hstocked.built.shaped ?_ dec
        simp [Tree.isEndpoint, hroot, hkind, NodeKind.endpoint?]
      · simp only [if_neg hannounce]
        cases hlookup : conn.ids.lookup tag.toNat with
        | error cause => exact h.fair_refused (conn.ids.fair_lookup tag.toNat cause hlookup)
        | ok path => exact h.fair_receiveOn hstocked env (IdTables.bound?_of_lookup hlookup) dec

end Receive

end Connection

/-! ### All messages -/

/-- Something that happens to a connection, and gives ids to objects of declared caches only. -/
def Happening.Declared (caches : List (AnyCache A)) : Happening A → Prop
  | .act action => action.Declared caches
  | _ => True

namespace Connection

variable {conn : Connection A}

theorem Sound.meet (h : conn.Sound builder.build caches)
    (hstocked : Stocked revision (BuilderCall.Proper caches) builder handles caches)
    {happening : Happening A} (hdeclared : happening.Declared caches) :
    (conn.meet happening).Sound builder.build caches := by
  cases happening with
  | receive env message => exact (h.fair_receive hstocked env message).sound
  | act action =>
      obtain ⟨outgoing, nextFreeId, outbox, stored, hconn, -⟩ := action.frame conn
      have hslots := hstocked.careful_stock.slots
      have hsorted := Action.Declared.sorted hdeclared hslots h.sorted
      rw [hconn] at hsorted
      show (action.perform conn).Sound builder.build caches
      rw [hconn]
      exact ⟨h.same, h.paths, hsorted⟩
  | drain => exact ⟨h.same, h.paths, h.sorted⟩

theorem Sound.live (hstocked : Stocked revision (BuilderCall.Proper caches) builder handles caches)
    (happenings : List (Happening A)) : ∀ {conn : Connection A},
      (∀ happening ∈ happenings, happening.Declared caches) → conn.Sound builder.build caches →
      (conn.live happenings).Sound builder.build caches := by
  induction happenings with
  | nil => exact fun _ h => h
  | cons happening rest ih =>
      intro conn hdeclared h
      obtain ⟨hfirst, hrest⟩ := List.forall_mem_cons.mp hdeclared
      exact ih hrest (h.meet hstocked hfirst)

/-- **No message is refused through a fault of the local side**, whatever the peer has sent before:
no value is of another type than its user expects, no node is missing, no Dynamic node is left
without a place or given a wrong one, and nothing impossible is asked of a decoder.  The tree has to
be declared with handles that the builder gave out and with callbacks that are careful. -/
theorem receive_blameless
    (hstocked : Stocked revision (BuilderCall.Proper caches) builder handles caches)
    (label : String) (attachment : Option (Value A)) {happenings : List (Happening A)}
    (hdeclared : ∀ happening ∈ happenings, happening.Declared caches) (env : A.Env)
    (message : Bytes) {cause : ProtocolError}
    (hrefused : (((new builder.build label attachment).live happenings).receive env
      message).outcome = .error cause) : cause.kind ≠ .misuse := by
  have hsound := Sound.live hstocked happenings hdeclared
    (sound_new builder.build caches label attachment)
  exact (hsound.fair_receive hstocked env message).outcome cause hrefused

end Connection

end Tree

/-! The house, and a peer that knows where a switch is. -/

namespace House

theorem roomKey_careful : roomKey.Careful := by
  intro env above
  refine .bind (.basic (.codec (.basic (.bits rfl)))) fun room => .basic (.free fun dec => ?_)
  exact ⟨some room, dec, rfl⟩

theorem decodeSwitch_careful (env : Unit) (lamp : Nat) (ctx : MessageContext house) :
    Callback.Careful [] (decodeSwitch env lamp ctx) := by
  refine .bind (.basic (.reading (.basic (.codec (.basic .bool))))) fun on => ?_
  exact .basic (.free fun state => ⟨(), _, rfl, fun hsorted => hsorted⟩)

/-- All calls are made with handles that were given out, and their callbacks are careful. -/
theorem stocked : Stocked .zero (BuilderCall.Proper []) builder handles [] := by
  obtain ⟨room, half, lamp, place, hroom, hhalf, hlamp, hplace, hswitch⟩ := declared
  have hproper : ∀ {given : List (Handle house)} {call : BuilderCall house},
      (∀ handle ∈ call.uses, handle ∈ given) → call.Careful [] → call.Proper [] given :=
    fun hhonest hcareful => ⟨hhonest, hcareful⟩
  have hstocked := Stocked.answered declareSwitch (.answered declarePlace (.answered declareLamp
    (.answered declareHalf (.answered declareRoom (.new : Stocked .zero (BuilderCall.Proper [])
      _ _ _) (hproper ?_ roomKey_careful) hroom) (hproper ?_ trivial) hhalf) (hproper ?_ trivial)
      hlamp) (hproper ?_ trivial) hplace) (hproper ?_ decodeSwitch_careful) hswitch
  · exact hstocked
  all_goals
    simp [BuilderCall.uses, declareRoom, declareHalf, declareLamp, declarePlace, declareSwitch,
      Parent.root]

/-- The path `room.half.place.switch` is announced with id 3, and the lamp 3 is switched. -/
def knocks : List (Happening house) :=
  [.receive () ([0, 0, 0, 0, 3, 4, 4] ++ Bytes.ofString "room" ++ [4] ++ Bytes.ofString "half" ++
      [5] ++ Bytes.ofString "place" ++ [6] ++ Bytes.ofString "switch"),
    .receive () [0, 0, 0, 3, 14]]

/-- The same message with a stray byte behind it is refused, after all its keys were read. -/
theorem knock_blameless : ∃ cause,
    (((Connection.new builder.build "b" none).live knocks).receive () [0, 0, 0, 3, 14, 7]).outcome
        = .error cause ∧ cause = .trailingBytes "room.half.place.switch" 1 ∧
      cause.kind ≠ .misuse := by
  have hrefused : (((Connection.new builder.build "b" none).live knocks).receive ()
      [0, 0, 0, 3, 14, 7]).outcome = .error (.trailingBytes "room.half.place.switch" 1) := by
    decide +kernel
  refine ⟨_, hrefused, rfl, Connection.receive_blameless stocked "b" none ?_ () _ hrefused⟩
  simp [knocks, Happening.Declared]

end House

end PathWire
