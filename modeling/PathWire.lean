import PathWire.Proofs.Cache.Assigning
import PathWire.Proofs.Codec.Canonical
import PathWire.Proofs.Codec.Checking
import PathWire.Proofs.Codec.Identifier
import PathWire.Proofs.Codec.Truncation
import PathWire.Proofs.Frame.Chunks
import PathWire.Proofs.Frame.Sizes
import PathWire.Proofs.Peer.Absence
import PathWire.Proofs.Peer.Agreement
import PathWire.Proofs.Peer.Allocation
import PathWire.Proofs.Peer.Blame
import PathWire.Proofs.Peer.Fidelity
import PathWire.Proofs.Peer.Hostile
import PathWire.Proofs.Peer.Linked
import PathWire.Proofs.Peer.Refusal
import PathWire.Proofs.Peer.Resolution
import PathWire.Proofs.Session.Inbound
import PathWire.Proofs.Session.Sendable
import PathWire.Proofs.Session.Service
import PathWire.Proofs.Session.Standstill
import PathWire.Proofs.Tree.Declined
import PathWire.Proofs.Tree.Names
import PathWire.Proofs.Tree.WellFormed
import PathWire.Scenario.Run
import PathWire.Session.ConfigFile
