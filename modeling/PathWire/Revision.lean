/-
Protocol revisions: the limits that both peers have to agree on.

The endpoint tree is declared alike on both sides; the revision pins the numbers that
interpret it.  Frame size, cadence and bandwidth are defaults only, which a session may
override for itself.
-/

namespace PathWire

/-- The tag of the message that binds a path to an id. -/
def announceTag : Nat := 0

/-- The tag of a container of several messages. -/
def batchTag : Nat := 1

/-- The tag of a bandwidth advertisement. -/
def bandwidthTag : Nat := 2

/-- The number of bytes of the tag in front of every message. -/
def tagBytes : Nat := 4

/-- The bound on a text for which nothing else is said. -/
def maxStringBytes : Nat := 32 * 1024

/-- A named set of limits. -/
structure Revision where
  /-- Identifies the revision; later revisions have larger ids. -/
  id : UInt16
  /-- Wire ids below this are not handed out to paths. -/
  reservedIds : UInt32
  /-- The largest id a peer may announce. -/
  maxIncomingId : UInt32
  /-- The most UTF-8 bytes of a node name. -/
  maxNameBytes : Nat
  /-- The most nodes of a path. -/
  maxPathDepth : Nat
  /-- The default bound on texts in payloads. -/
  maxStringBytes : Nat
  /-- The largest frame a batch may grow to. -/
  maxFrameBytes : Nat
  /-- Milliseconds between two flushes. -/
  tickIntervalMs : Nat
  /-- The least send budget, in bytes per second. -/
  bandwidthFloor : UInt32
  /-- The send budget where a session sets none, in bytes per second. -/
  bandwidthDefaultCap : UInt32
  /-- Entries a cache holds per connection before it refuses new values. -/
  maxCacheEntries : UInt32
  deriving DecidableEq, Repr

/-- Flushes per second at the default cadence. -/
def Revision.ticksPerSecond (revision : Revision) : Nat := 1000 / revision.tickIntervalMs

/-- The first set of limits: three reserved ids, twenty flushes per second. -/
def Revision.zero : Revision where
  id := 0
  reservedIds := 3
  maxIncomingId := 1048576
  maxNameBytes := 64
  maxPathDepth := 32
  maxStringBytes := PathWire.maxStringBytes
  maxFrameBytes := 32 * 1024
  tickIntervalMs := 50
  bandwidthFloor := 8192
  bandwidthDefaultCap := 1048576
  maxCacheEntries := 65536

/-- The set of limits in use. -/
def Revision.current : Revision := Revision.zero

/-- The first id handed out to a path. -/
def firstAllocatedId : Nat := Revision.current.reservedIds.toNat

end PathWire
