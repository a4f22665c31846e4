/-
Bandwidth advertisements and the send budget.

Each side advertises its own cap once.  The budget is the smaller of the two caps, but
never below the floor; it is advisory, so exceeding it is counted and nothing more.
-/
import PathWire.Frame.Batch

namespace PathWire

/-- The frame that advertises a cap. -/
def encodeAdvert (bytesPerSecond : UInt32) : Bytes :=
  ((Encoder.empty.writeU32 (UInt32.ofNat bandwidthTag)).writeVarU32 bytesPerSecond).bytes

/-- Reads an advertisement. -/
def FrameReader.advert : FrameReader UInt32 := do
  expectTag bandwidthTag
  let value ← Reader.varU32.inFrame
  finish
  return value

/-- The cap a frame advertises. -/
def decodeAdvert (frame : Bytes) : Except SessionError UInt32 := FrameReader.advert.run frame

/-- The two sides' caps, in bytes per second. -/
structure Bandwidth where
  localCap : UInt32
  floor : UInt32
  /-- What the peer advertised last. -/
  peer : Option UInt32
  deriving DecidableEq, Repr

namespace Bandwidth

/-- The caps before the peer has advertised. -/
def new (localCap floor : UInt32) : Bandwidth := ⟨localCap, floor, none⟩

/-- The smaller of the known caps. -/
def cap (bandwidth : Bandwidth) : Nat :=
  match bandwidth.peer with
  | some peer => min bandwidth.localCap.toNat peer.toNat
  | none => bandwidth.localCap.toNat

/-- The bytes per second this side should stay under. -/
def effective (bandwidth : Bandwidth) : Nat := max bandwidth.cap bandwidth.floor.toNat

/-- The budget for one tick, computed in 64 bits. -/
def perTick (bandwidth : Bandwidth) (tickIntervalMs : Nat) : Nat :=
  bandwidth.effective * tickIntervalMs % Bits.bound 64 / 1000

/-- The frame that advertises this side's cap. -/
def advertisement (bandwidth : Bandwidth) : Bytes := encodeAdvert bandwidth.localCap

end Bandwidth

end PathWire
