/-
An announce is understood.

The sender writes an id, the number of nodes and their names; the receiver reads them back, finds
the path by its names and binds it.  Nothing on the way can fail if both sides have the same
tree: the limits on the id, on the depth and on the names are the same numbers.
-/
import PathWire.Peer.Connection
import PathWire.Proofs.Codec.RoundTrip
import PathWire.Proofs.Peer.Receive
import PathWire.Proofs.Peer.Route

namespace PathWire

variable {A : Application} {tree : Tree A}

/-- A codec read inside a callback mirrors the same write. -/
theorem Mirrors.inMessage {α : Type} {read : Reader α} {value : α} {before after : Encoder}
    (h : Mirrors read value before after) : Mirrors read.inMessage value before after := by
  intro hshort
  obtain ⟨hafter, hstep⟩ := h hshort
  refine ⟨hafter, fun hahead => ?_⟩
  obtain ⟨rest₀, rolling₀, hplace, hread⟩ := hstep hahead
  exact ⟨rest₀, rolling₀, hplace, Step.adapt_ok.mpr hread⟩

namespace Connection

/-! ### Names -/

theorem writeStr_fits {enc after : Encoder} {content : String} {bound : Nat}
    (h : enc.writeStr content bound = .ok after) : (Bytes.ofString content).length ≤ bound := by
  unfold Encoder.writeStr at h
  by_cases hfits : (Bytes.ofString content).length ≤ maxLengthField ∧
      (Bytes.ofString content).length ≤ bound
  · exact hfits.2
  · simp [if_neg hfits] at h

theorem liftCodec_ok {α : Type} {result : Except CodecError α} {value : α}
    (h : liftCodec result = .ok value) : result = .ok value := by
  cases result with
  | ok found => exact congrArg Except.ok (Except.ok.inj h)
  | error cause => cases h

/-- The names of a path are read as they were written. -/
theorem mirrors_names (nodes : List NodeIndex) : ∀ {enc after : Encoder},
    writeNames tree nodes enc = .ok after →
      Mirrors (readNames tree.revision.maxNameBytes nodes.length) (nodes.map tree.name) enc
        after := by
  induction nodes with
  | nil =>
      intro enc after h
      cases h
      exact .pure [] enc
  | cons index rest ih =>
      intro enc after h
      obtain ⟨between, hname, hrest⟩ := Result.of_bind_ok h
      have hname := liftCodec_ok hname
      exact (Reader.mirrors_str hname (writeStr_fits hname)).bind ((ih hrest).map _)

/-- The encoder that has written an announce. -/
theorem announce_ok {id : Nat} {nodes : List NodeIndex} {bytes : Bytes}
    (h : announce tree id nodes = .ok bytes) :
    ∃ enc, writeNames tree nodes (((Encoder.empty.writeU32 (UInt32.ofNat announceTag)).writeVarU32
      (UInt32.ofNat id)).writeVarU32 (UInt32.ofNat nodes.length)) = .ok enc ∧
      bytes = enc.bytes := by
  unfold announce at h
  obtain ⟨enc, hnames, h⟩ := Result.of_bind_ok h
  exact ⟨enc, hnames, (Except.ok.inj h).symm⟩

theorem mirrors_u32 (enc : Encoder) (number : UInt32) :
    Mirrors Reader.u32 number enc (enc.writeU32 number) :=
  Reader.mirrors_machineWord .u32 .u32 enc number

theorem mirrors_varU32 (enc : Encoder) (number : UInt32) :
    Mirrors Reader.varU32.inMessage number enc (enc.writeVarU32 number) :=
  (Reader.mirrors_varint .varU32 (Varint.getU32_putU32 number) enc).inMessage

/-- The fields of an announce are read one after the other, up to its end. -/
theorem announce_steps {id : Nat} {nodes : List NodeIndex} {bytes : Bytes}
    (h : announce tree id nodes = .ok bytes) : ∃ behindTag behindId behindDepth rolling,
      Reader.u32 (.ofBytes bytes) = .ok (UInt32.ofNat announceTag) behindTag ∧
      Reader.varU32.inMessage behindTag = .ok (UInt32.ofNat id) behindId ∧
      Reader.varU32.inMessage behindId = .ok (UInt32.ofNat nodes.length) behindDepth ∧
      (readNames tree.revision.maxNameBytes nodes.length).inMessage behindDepth
        = .ok (nodes.map tree.name) ⟨[], rolling, none⟩ := by
  obtain ⟨enc, hnames, rfl⟩ := announce_ok h
  -- the encoders in order, and then the decoders from the last one back
  obtain ⟨hshortTag, hbeforeTag⟩ :=
    mirrors_u32 .empty (UInt32.ofNat announceTag) Encoder.short_empty
  obtain ⟨hshortId, hbeforeId⟩ := mirrors_varU32 _ (UInt32.ofNat id) hshortTag
  obtain ⟨hshortDepth, hbeforeDepth⟩ := mirrors_varU32 _ (UInt32.ofNat nodes.length) hshortId
  obtain ⟨hshort, hbeforeNames⟩ := (mirrors_names nodes hnames).inMessage hshortDepth
  obtain ⟨rolling, hend⟩ := Encoder.ahead_bytes hshort
  obtain ⟨_, _, hplace, hstepNames⟩ := hbeforeNames hend
  obtain ⟨_, _, hplace, hstepDepth⟩ := hbeforeDepth hplace
  obtain ⟨_, _, hplace, hstepId⟩ := hbeforeId hplace
  obtain ⟨_, _, hplace, hstepTag⟩ := hbeforeTag hplace
  obtain ⟨rfl, rfl⟩ := Encoder.ahead_empty hplace
  exact ⟨_, _, _, rolling, hstepTag, hstepId, hstepDepth, hstepNames⟩

/-- An announce can be told by its tag. -/
theorem announce_tag {id : Nat} {nodes : List NodeIndex} {bytes : Bytes}
    (h : announce tree id nodes = .ok bytes) : messageTag? bytes = some announceTag := by
  obtain ⟨behindTag, _, _, _, htag, -⟩ := announce_steps h
  simp only [messageTag?, htag]
  rfl

/-- **An announce binds its path**, if its id is free or bound to that path already. -/
theorem receive_announce {conn : Connection A} {env : A.Env} (hshaped : conn.tree.Shaped)
    {id : Nat} {path : Path} {bytes : Bytes} {resolved : ResolvedPath}
    (h : announce conn.tree id path = .ok bytes) (hid : id < 2 ^ 32)
    (hpath : conn.tree.Passable path) (hcount : path.length < 2 ^ 32)
    (hresolved : ResolvedPath.ofNodes conn.tree path = .ok resolved)
    {registered : ResolvedPath} {ids : IdTables}
    (hregister : conn.ids.register id resolved = .ok (registered, ids)) :
    conn.receive env bytes = ⟨.ok (.registered id registered.dotted), { conn with ids }, []⟩ := by
  obtain ⟨behindTag, behindId, behindDepth, rolling, htag, hreadId, hreadDepth, hreadNames⟩ :=
    announce_steps h
  have hidField : (UInt32.ofNat id).toNat = id := UInt32.toNat_ofNat_of_lt' hid
  have hdepthField : (UInt32.ofNat path.length).toNat = path.length :=
    UInt32.toNat_ofNat_of_lt' hcount
  have hread : readAnnounce conn.tree.revision behindTag
      = .ok (id, path.map conn.tree.name) ⟨[], rolling, none⟩ := by
    unfold readAnnounce
    rw [Step.bind_ok hreadId, Step.bind_ok hreadDepth]
    simp only [hdepthField, if_neg (Nat.not_lt.mpr hpath.depth), hidField]
    rw [Step.bind_ok hreadNames]
    rfl
  have hannounce : (UInt32.ofNat announceTag).toNat = announceTag := rfl
  unfold receive receiveAnnounce
  simp only [htag, hannounce, if_true, hread, hpath.ofNames hshaped, hresolved, hregister]

end Connection

end PathWire
