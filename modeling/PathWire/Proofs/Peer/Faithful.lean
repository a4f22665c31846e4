/-
Values come down as they went up.

A sender goes from the endpoint to the root and leaves at every carrier the value that it had
there; a receiver goes back down and has to find the same values, some in the message and the
others in the value above.  Whether it does is up to the application: `FaithfulAt` says what has
to be true of its conversions at the nodes that a message passes, and `Climbs.mirrors_keys` that
nothing else is needed.
-/
import PathWire.Proofs.Peer.Announce
import PathWire.Proofs.Tree.Typed

namespace PathWire

variable {A : Application}

/-! ### Typed data -/

namespace Value

theorem as?_eq {value : Value A} {type : ContextType A} {data : type.El} :
    value.as? type = some data ↔ value = ⟨type, data⟩ := by
  obtain ⟨held, content⟩ := value
  unfold as?
  by_cases hsame : held = type
  · subst hsame
    simp
  · simp only [dif_neg hsame, reduceCtorEq, false_iff]
    exact fun heq => hsame (congrArg Value.type heq)

theorem as_eq {value : Value A} {type : ContextType A} {data : type.El} :
    value.as type = .ok data ↔ value = ⟨type, data⟩ := by
  rw [← as?_eq]
  unfold as
  cases value.as? type <;> simp

/-- There is one value of the unit type. -/
theorem eq_unit {value : Value A} (h : value.type = .unit) : value = .unit := by
  obtain ⟨type, data⟩ := value
  subst h
  rfl

end Value

/-! ### What is asked of the application -/

/-- A reader takes back what was written between two encoders: it reads the fields one by one,
gives the value for theirs, and leaves what stands behind them. -/
def TakesBack {α : Type} (read : MessageReader α) (value : α) (before after : Encoder) : Prop :=
  ∃ fields reads values, after = before.writeAll fields ∧
    MatchAll (before.accepted fields) reads values ∧
    ∀ dec rest, Reader.fields reads dec = .ok values rest → read dec = .ok value rest

/-- What one side writes of a value, the other takes back below the value above it. -/
def ContextKey.Faithful {parent child : ContextType A} (key : ContextKey A parent child)
    (env peerEnv : A.Env) (data : child.El) : Prop :=
  ∀ enc after, key.write env data enc = .ok after →
    TakesBack (key.read peerEnv (key.parentOf env data)) (some data) enc after

namespace Carrier

/-- What is asked of a carrier that is no link: a key is read as it is written, a view finds what
it has put back, and the attachment supplies the value in use. -/
def Faithful (env peerEnv : A.Env) (attached : Option (Value A)) (value : Value A) :
    Carrier A → Prop
  | @key _ _ child codec => ∀ data, value.as? child = some data → codec.Faithful env peerEnv data
  | @view _ _ child narrow widen =>
    ∀ data, value.as? child = some data → narrow peerEnv (widen env data) = some data
  | @attachment _ type child supply =>
    ((attached.bind (·.as? type)).bind (supply peerEnv)).map (Value.mk child) = some value
  | link _ _ => True

/-- What is asked of a link that was chosen with an owner: the value is found in the owner. -/
def Owns (peerEnv : A.Env) (owner value : Value A) : Carrier A → Prop
  | @link _ parent child _ childOf =>
    ((owner.as? parent).bind (childOf peerEnv)).map (Value.mk child) = some value
  | _ => False

end Carrier

/-- What is asked of the application at a node that a message passes with a value. -/
structure Route.FaithfulAt (tree : Tree A) (env peerEnv : A.Env) (attached : Option (Value A))
    (chosen : Option (LinkChoice A)) (index : NodeIndex) (value : Value A) : Prop where
  carrier : ∀ {node carrier}, tree.node? index = some node → node.kind.carrier? = some carrier →
    carrier.Faithful env peerEnv attached value
  link : ∀ {node resolver link linkNode carrier}, tree.node? index = some node →
    node.kind = .dynamic resolver → linkFor env chosen index node.name resolver value = .ok link →
    tree.node? link.link = some linkNode → linkNode.kind.carrier? = some carrier →
    carrier.Owns peerEnv link.parent value

/-- The climb that found a route came by a node with a value. -/
def Route.Passes (tree : Tree A) (env : A.Env) (chosen : Option (LinkChoice A)) (route : Route A)
    (index : NodeIndex) (value : Value A) : Prop :=
  ∃ below, Climbs tree env chosen index value below route

/-! ### One carrier -/

theorem TakesBack.mirrors {α : Type} {read : MessageReader α} {value : α} {before after : Encoder}
    (h : TakesBack read value before after) : Mirrors read value before after := by
  obtain ⟨fields, reads, values, rfl, hmatch, hread⟩ := h
  intro hshort
  obtain ⟨hafter, hstep⟩ := mirrors_writeAll fields before hmatch hshort
  refine ⟨hafter, fun hahead => ?_⟩
  obtain ⟨rest₀, rolling₀, hplace, hfields⟩ := hstep hahead
  exact ⟨rest₀, rolling₀, hplace, hread _ _ hfields⟩

/-- A reader that takes nothing mirrors that nothing is written. -/
theorem Mirrors.of_still {ε α : Type} {read : EStateM ε Decoder α} {value : α}
    (h : ∀ dec, read dec = .ok value dec) (enc : Encoder) : Mirrors read value enc enc :=
  fun hshort => ⟨hshort, fun hahead => ⟨_, _, hahead, h _⟩⟩

namespace Carrier

variable {carrier : Carrier A} {env peerEnv : A.Env} {attached : Option (Value A)}
  {value above : Value A} {enc after : Encoder}

/-- The peer reads a carrier's value below the one that the sender went on with. -/
theorem Faithful.mirrors (h : carrier.Faithful env peerEnv attached value)
    (habove : carrier.toParent env value = .ok above)
    (hwrite : carrier.write env value enc = .ok after) :
    Mirrors (carrier.read peerEnv above attached) (some value) enc after := by
  cases carrier with
  | @key parent child codec =>
      obtain ⟨data, hdata, habove⟩ := Result.of_bind_ok habove
      cases habove
      obtain ⟨same, hsame, hcodec⟩ := Result.of_bind_ok hwrite
      cases hdata.symm.trans hsame
      obtain rfl := Value.as_eq.mp hdata
      have hread := h data (Value.as?_eq.mpr rfl) enc after hcodec
      have hsame : (⟨parent, codec.parentOf env data⟩ : Value A).as parent
          = .ok (codec.parentOf env data) := Value.as_eq.mpr rfl
      simp only [read, hsame]
      exact (Mirrors.pure _ enc).bind (hread.mirrors.map _)
  | @view parent child narrow widen =>
      obtain ⟨data, hdata, habove⟩ := Result.of_bind_ok habove
      cases habove
      cases hwrite
      obtain rfl := Value.as_eq.mp hdata
      have hfound := h data (Value.as?_eq.mpr rfl)
      refine .of_still (fun dec => ?_) enc
      have hsame : (⟨parent, widen env data⟩ : Value A).as parent = .ok (widen env data) :=
        Value.as_eq.mpr rfl
      simp only [read, hsame]
      show EStateM.Result.ok ((narrow peerEnv (widen env data)).map (Value.mk child)) dec = _
      rw [hfound]
      rfl
  | attachment supply =>
      cases hwrite
      refine .of_still (fun dec => ?_) enc
      rw [← h]
      rfl
  | link name childOf => cases habove

/-- The peer finds a Dynamic node's value in the owner that the sender went on with. -/
theorem Owns.mirrors (h : carrier.Owns peerEnv above value)
    (hwrite : carrier.write env value enc = .ok after) :
    Mirrors (carrier.read peerEnv above attached) (some value) enc after := by
  cases carrier with
  | @link parent child name childOf =>
      cases hwrite
      refine .of_still (fun dec => ?_) enc
      obtain ⟨data, hdata, -⟩ := Option.map_eq_some_iff.mp h
      obtain ⟨owner, howner, -⟩ := Option.bind_eq_some_iff.mp hdata
      have hsame : above.as parent = .ok owner := Value.as_eq.mpr (Value.as?_eq.mp howner)
      have hfound : (childOf peerEnv owner).map (Value.mk child) = some value := by
        simpa [Owns, howner] using h
      simp only [read, hsame]
      show EStateM.Result.ok ((childOf peerEnv owner).map (Value.mk child)) dec = _
      rw [hfound]
  | _ => cases h

/-- The owner of a value is of the type that the link starts from. -/
theorem Owns.type (h : carrier.Owns peerEnv above value) : above.type = carrier.upper := by
  cases carrier with
  | @link parent child name childOf =>
      obtain ⟨data, hdata, -⟩ := Option.map_eq_some_iff.mp h
      obtain ⟨owner, howner, -⟩ := Option.bind_eq_some_iff.mp hdata
      rw [Value.as?_eq.mp howner]
      rfl
  | _ => cases h

theorem toParent_type (h : carrier.toParent env value = .ok above) :
    above.type = carrier.upper := by
  cases carrier with
  | key codec =>
      obtain ⟨data, -, h⟩ := Result.of_bind_ok h
      cases h
      rfl
  | view narrow widen =>
      obtain ⟨data, -, h⟩ := Result.of_bind_ok h
      cases h
      rfl
  | attachment supply =>
      cases h
      rfl
  | link name childOf => cases h

end Carrier

/-! ### All carriers of a route -/

namespace Route

variable {env peerEnv : A.Env} {attached : Option (Value A)} {lowest : Value A}

/-- The peer reads the carriers of a route as they are written, if the value above them is
`above`. -/
def ReadsBack (tree : Tree A) (env peerEnv : A.Env) (attached : Option (Value A))
    (lowest above : Value A) (route : Route A) : Prop :=
  ∀ enc after, Connection.writeKeys tree env (route.keys.zip route.values) enc = .ok after →
    Mirrors (Connection.readKeys tree peerEnv attached above route.keys)
      ⟨route.values, lowest, []⟩ enc after

theorem readsBack_empty {tree : Tree A} (lowest : Value A) :
    ReadsBack tree env peerEnv attached lowest lowest .empty := by
  intro enc after hwrite
  cases hwrite
  exact .pure _ enc

/-- One more carrier on top, which is read as it is written. -/
theorem ReadsBack.addKey {tree : Tree A} {above value : Value A} {below : Route A}
    (h : ReadsBack tree env peerEnv attached lowest value below) {index : NodeIndex}
    {node : Node A} {carrier : Carrier A} (hnode : tree.node? index = some node)
    (hcarrier : node.kind.carrier? = some carrier)
    (hread : ∀ enc after, carrier.write env value enc = .ok after →
      Mirrors (carrier.read peerEnv above attached) (some value) enc after) :
    ReadsBack tree env peerEnv attached lowest above (below.addKey index value) := by
  intro enc after hwrite
  obtain ⟨found, hfound, hwrite⟩ := Result.of_bind_ok hwrite
  cases hnode.symm.trans (Tree.node_ok hfound)
  simp only [hcarrier] at hwrite
  obtain ⟨between, hfirst, hrest⟩ := Result.of_bind_ok hwrite
  have hnext := (h between after hrest).map fun read : Connection.ReadKeys A =>
    { read with values := value :: read.values }
  simp only [Route.addKey, Connection.readKeys, Tree.node_of_node? hnode]
  refine (Mirrors.pure node enc).bind ?_
  simp only [hcarrier]
  exact (hread enc between hfirst).bind hnext

end Route

/-! ### The way down

By induction on the climb: the value at every node is of the type that the node hands down, so at
the root it is the unit value, which is where the peer starts. -/

namespace TreeBuilder

variable {builder : TreeBuilder A} {handles : List (Handle A)} {index above : NodeIndex}
  {node : Node A} {type : ContextType A}

/-- Values of a type stand at a node: it offers the type to its children, or it is an endpoint
that takes it. -/
def Holds (builder : TreeBuilder A) (handles : List (Handle A)) (index : NodeIndex)
    (type : ContextType A) : Prop :=
  ∃ node, builder.node? index = some node ∧
    (node.kind.leafLabel? = none ∧ builder.Offers handles type index ∨
      ∃ endpoint, node.kind.endpoint? = some endpoint ∧ endpoint.type = type)

/-- A node above another one holds what it offers. -/
theorem holds_above (hshaped : builder.build.Shaped) (hnode : builder.build.node? index = some node)
    (habove : node.parent = some above) (h : builder.Offers handles type above) :
    builder.Holds handles above type := by
  obtain ⟨upper, hupper, hleaf, -⟩ := hshaped.listed hnode habove
  exact ⟨upper, hupper, .inl ⟨hleaf, h⟩⟩

/-- At the root there is only the unit type. -/
theorem Typed.holds_root (htyped : builder.Typed handles)
    (hnode : builder.build.node? .root = some node) (hkind : node.kind = .root)
    (h : builder.Holds handles .root type) : type = .unit := by
  rcases h with ⟨same, hsame, ⟨-, hoffer⟩ | ⟨endpoint, hendpoint, -⟩⟩
  · exact htyped.root hoffer
  · cases hnode.symm.trans hsame
    rw [hkind] at hendpoint
    cases hendpoint

/-- A node without a carrier holds what the node above it offers. -/
theorem Typed.holds_plain (htyped : builder.Typed handles)
    (hnode : builder.build.node? index = some node) (hcarrier : node.kind.carrier? = none)
    (hroot : node.kind ≠ .root) (hdynamic : node.kind.isDynamic = false)
    (habove : node.parent = some above) (h : builder.Holds handles index type) :
    builder.Offers handles type above := by
  obtain ⟨same, hsame, hheld⟩ := h
  cases hnode.symm.trans hsame
  cases hkind : node.kind with
  | root => exact absurd hkind hroot
  | group =>
      rcases hheld with ⟨-, hoffer⟩ | ⟨endpoint, hendpoint, -⟩
      · exact htyped.grouped hnode hkind habove hoffer
      · rw [hkind] at hendpoint
        cases hendpoint
  | endpoint found =>
      rcases hheld with ⟨hleaf, -⟩ | ⟨endpoint, hendpoint, rfl⟩
      · rw [hkind] at hleaf
        cases hleaf
      · rw [hkind] at hendpoint
        cases hendpoint
        exact (htyped.fits hnode).ended hkind habove
  | dynamic resolver =>
      rw [hkind] at hdynamic
      cases hdynamic
  | carrier | link | keyedEndpoint =>
      rw [hkind] at hcarrier
      cases hcarrier

end TreeBuilder

/-- **The peer finds the values of a route that the sender climbed**, if the application is
faithful at the nodes that the climb came by. -/
theorem Route.Climbs.readsBack {builder : TreeBuilder A} {handles : List (Handle A)}
    (hshaped : builder.build.Shaped) (htyped : builder.Typed handles) {env peerEnv : A.Env}
    {attached : Option (Value A)} {chosen : Option (LinkChoice A)} {index : NodeIndex}
    {value lowest : Value A} {below route : Route A}
    (h : Climbs builder.build env chosen index value below route) :
    (∀ index value, Passes builder.build env chosen route index value →
      FaithfulAt builder.build env peerEnv attached chosen index value) →
    builder.Holds handles index value.type →
    ReadsBack builder.build env peerEnv attached lowest value below →
      ReadsBack builder.build env peerEnv attached lowest .unit route := by
  induction h with
  | root hnode hkind =>
      intro _ hheld hbelow
      obtain rfl := hshaped.root hnode hkind
      rwa [Value.eq_unit (htyped.holds_root hnode hkind hheld)] at hbelow
  | @dynamic _ above value below route _ linkNode _ link hnode hkind hlink hlinkNode htarget habove
      hrest ih =>
      intro hfaithful _ hbelow
      obtain ⟨carrier, hcarrier⟩ : ∃ carrier, linkNode.kind.carrier? = some carrier :=
        Option.isSome_iff_exists.mp (carrier?_of_target? htarget)
      have howns := (hfaithful _ _ ⟨below, .dynamic hnode hkind hlink hlinkNode htarget habove
        hrest⟩).link hnode hkind hlink hlinkNode hcarrier
      refine ih hfaithful ?_ (hbelow.addKey hlinkNode hcarrier fun _ _ hwrite =>
        howns.mirrors hwrite)
      rw [howns.type]
      exact TreeBuilder.holds_above hshaped hlinkNode habove
        ((htyped.fits hlinkNode).carried hcarrier habove)
  | @carrier _ above value _ below route node carrier hnode hcarrier hvalue habove hrest ih =>
      intro hfaithful _ hbelow
      have hcarried := (hfaithful _ _ ⟨below, .carrier hnode hcarrier hvalue habove hrest⟩).carrier
        hnode hcarrier
      refine ih hfaithful ?_ (hbelow.addKey hnode hcarrier fun _ _ hwrite =>
        hcarried.mirrors hvalue hwrite)
      rw [Carrier.toParent_type hvalue]
      exact TreeBuilder.holds_above hshaped hnode habove
        ((htyped.fits hnode).carried hcarrier habove)
  | plain hnode hcarrier hroot hdynamic habove hrest ih =>
      intro hfaithful hheld hbelow
      refine ih hfaithful ?_ hbelow
      exact TreeBuilder.holds_above hshaped hnode habove
        (htyped.holds_plain hnode hcarrier hroot hdynamic habove hheld)

end PathWire
