/-
Two peers on one stream.

The pump of each peer moves frames onto the stream in one direction and off it in the other.  Frames
that one peer has for the other are at any time delivered, on their way, or still to be written, and
the bytes that are on their way are those of whole frames, wherever they are cut.  As long as the
sessions run and the frames fit, nothing ends a pump.
-/
import Mathlib.Logic.Relation
import PathWire.Proofs.Frame.Chunks
import PathWire.Proofs.Peer.Agreement
import PathWire.Session.Pump

namespace PathWire

open FrameCodec (delimited)

/-! ### One pump -/

namespace Pump

variable {pump next : Pump} {wiring after : PumpWiring} {step : PumpStep}

/-- A frame that was decoded and is not yet handed to the loop. -/
def inHand (pump : Pump) : List Bytes :=
  match pump.phase with
  | .delivering frame => [frame]
  | _ => []

/-- A pump that does one thing at a time, and was not told to stop. -/
inductive Active (pump : Pump) : Prop
  | selecting (hphase : pump.phase = .selecting) (hsent : pump.unsent = [])
  | delivering (frame : Bytes) (hphase : pump.phase = .delivering frame) (hsent : pump.unsent = [])
  | sending (hphase : pump.phase = .sending) (hunsent : pump.unsent ≠ [])

end Pump

/-- Both ends of the streams are there, the session's loop runs, and nobody shuts it down. -/
structure PumpWiring.Steady (wiring : PumpWiring) : Prop where
  incoming : wiring.incoming.isClosed = false
  outgoing : wiring.outgoing.isBroken = false
  session : wiring.sessionGone = false
  signal : wiring.signalled = false

namespace Pump

variable {pump next : Pump} {wiring after : PumpWiring} {step : PumpStep}

/-- What a pump can do as long as nothing ends. -/
inductive Goes (pump : Pump) (wiring : PumpWiring) : Pump → PumpWiring → Prop
  | read (count : Nat) (hphase : pump.phase = .selecting) :
      Goes pump wiring
        { pump with
          phase := .selecting
          arrived := pump.arrived ++ wiring.incoming.held.take count }
        { wiring with incoming := wiring.incoming.skip count }
  | decode (frame rest : Bytes) (hphase : pump.phase = .selecting)
      (hdecode : FrameCodec.standard.decode pump.arrived = (.ok (some frame), rest)) :
      Goes pump wiring { pump with phase := .delivering frame, arrived := rest } wiring
  | misread (cause : TransportError) (rest : Bytes) (hphase : pump.phase = .selecting)
      (hdecode : FrameCodec.standard.decode pump.arrived = (.error cause, rest)) :
      Goes pump wiring (pump.finish (.error cause)) wiring
  | deliver (frame : Bytes) (hphase : pump.phase = .delivering frame) :
      Goes pump wiring { pump with phase := .selecting }
        { wiring with delivered := wiring.delivered ++ [frame], inboxFree := false }
  | take (frame : Bytes) (queue : List Bytes) (unsent : Bytes) (hphase : pump.phase = .selecting)
      (hqueue : wiring.queue = frame :: queue)
      (hencode : FrameCodec.standard.encode frame pump.unsent = .ok unsent) :
      Goes pump wiring { pump with phase := .sending, unsent } { wiring with queue }
  | overlong (frame : Bytes) (queue : List Bytes) (cause : TransportError)
      (hphase : pump.phase = .selecting) (hqueue : wiring.queue = frame :: queue)
      (hencode : FrameCodec.standard.encode frame pump.unsent = .error cause) :
      Goes pump wiring (pump.finish (.error cause)) { wiring with queue }
  | write (count : Nat) (hphase : pump.phase = .sending) (hcount : count ≤ wiring.outgoing.room)
      (hsome : 0 < count) :
      Goes pump wiring
        { pump with
          phase := phaseAfterWrite .sending (pump.unsent.drop count)
          unsent := pump.unsent.drop count }
        { wiring with outgoing := wiring.outgoing.accept (pump.unsent.take count) }

/-- A pump that starts to write goes on, or cannot. -/
theorem goes_take (hphase : pump.phase = .selecting)
    (h : pump.takeFrame wiring .sending = some (next, after)) : pump.Goes wiring next after := by
  unfold takeFrame at h
  rcases hqueue : wiring.queue with _ | ⟨frame, queue⟩
  · simp [hqueue] at h
  · simp only [hqueue] at h
    cases hencode : FrameCodec.standard.encode frame pump.unsent with
    | ok unsent =>
        simp only [hencode] at h
        cases h
        exact .take frame queue unsent hphase hqueue hencode
    | error cause =>
        simp only [hencode] at h
        cases h
        exact .overlong frame queue cause hphase hqueue hencode

theorem goes_write (hphase : pump.phase = .sending) (hbroken : wiring.outgoing.isBroken = false)
    {count : Nat} (h : pump.writeBytes wiring count = some (next, after)) :
    pump.Goes wiring next after := by
  simp only [writeBytes, hphase, hbroken, Bool.false_eq_true, if_false] at h
  obtain ⟨-, h⟩ := Option.ite_none_left_eq_some.mp h
  obtain ⟨hsome, h⟩ := Option.ite_none_left_eq_some.mp h
  cases h
  exact .write _ hphase (Nat.min_le_right _ _) (Nat.pos_of_ne_zero hsome)

theorem goes (hactive : pump.Active) (hsteady : wiring.Steady)
    (h : pump.step? wiring step = some (next, after)) : pump.Goes wiring next after := by
  obtain ⟨hincoming, houtgoing, hsession, hsignal⟩ := hsteady
  cases hactive with
  | selecting hphase hsent =>
      cases step with
      | read count =>
          simp only [step?, read, hphase] at h
          split at h <;> cases h
          exact .read count hphase
      | decode =>
          simp only [step?, decode, hphase] at h
          split at h <;> rename_i hdecode <;> cases h
          · exact .decode _ _ hphase hdecode
          · exact .misread _ _ hphase hdecode
      | streamEnd =>
          simp only [step?, streamEnd, hphase] at h
          split at h <;> simp [hincoming] at h
      | take =>
          simp only [step?, take, hphase] at h
          exact goes_take hphase h
      | deliver => simp [step?, deliver, hphase] at h
      | write count => simp [step?, write, hphase] at h
      | sessionEnd => simp [step?, sessionEnd, hphase, hsession] at h
      | shutdown => simp [step?, shutdown, hphase, hsignal] at h
      | finish => simp [step?, finishDraining, hphase] at h
  | delivering frame hphase hsent =>
      cases step with
      | deliver =>
          simp only [step?, deliver, hphase] at h
          rw [if_neg (Bool.eq_false_iff.mp hsession)] at h
          obtain ⟨-, h⟩ := Option.ite_none_right_eq_some.mp h
          cases h
          exact .deliver frame hphase
      | read count => simp [step?, read, hphase] at h
      | decode => simp [step?, decode, hphase] at h
      | streamEnd => simp [step?, streamEnd, hphase] at h
      | take => simp [step?, take, hphase] at h
      | write count => simp [step?, write, hphase] at h
      | sessionEnd => simp [step?, sessionEnd, hphase] at h
      | shutdown => simp [step?, shutdown, hphase] at h
      | finish => simp [step?, finishDraining, hphase] at h
  | sending hphase hunsent =>
      cases step with
      | write count =>
          simp only [step?, write, hphase] at h
          exact goes_write hphase houtgoing h
      | read count => simp [step?, read, hphase] at h
      | decode => simp [step?, decode, hphase] at h
      | streamEnd => simp [step?, streamEnd, hphase] at h
      | deliver => simp [step?, deliver, hphase] at h
      | take => simp [step?, take, hphase] at h
      | sessionEnd => simp [step?, sessionEnd, hphase] at h
      | shutdown => simp [step?, shutdown, hphase] at h
      | finish => simp [step?, finishDraining, hphase] at h

end Pump

/-! ### Frames on their way -/

/-- One peer: its pump, and what its session has to do with it. -/
structure Station where
  pump : Pump
  /-- The frames that the session has yet to write. -/
  ahead : List Bytes
  /-- The frames that the session has written and the pump has not taken. -/
  queue : List Bytes
  /-- Whether the session's loop takes another frame. -/
  inboxFree : Bool
  /-- The frames handed to the loop, oldest first. -/
  delivered : List Bytes

namespace Station

/-- What the pump is connected to while the session runs. -/
def wiring (station : Station) (incoming outgoing : Duct) : PumpWiring :=
  ⟨incoming, outgoing, station.queue, false, station.inboxFree, false, station.delivered⟩

/-- The peer after its pump did something. -/
def after (station : Station) (pump : Pump) (wiring : PumpWiring) : Station :=
  { station with
    pump
    queue := wiring.queue
    inboxFree := wiring.inboxFree
    delivered := wiring.delivered }

end Station

/-- The bytes of some frames on a stream, cut in two.  What is in front decodes to the first frame,
if it is complete. -/
theorem decode_front {flying : List Bytes} {arrived more : Bytes}
    (hfit : ∀ frame ∈ flying, frame.length ≤ maxWireFrame)
    (h : flying.flatMap delimited = arrived ++ more) :
    FrameCodec.standard.decode arrived = (.ok none, arrived) ∧ (more = [] → flying = []) ∨
    ∃ frame rest others, flying = frame :: others ∧
      FrameCodec.standard.decode arrived = (.ok (some frame), rest) ∧
      others.flatMap delimited = rest ++ more := by
  have hmax : FrameCodec.standard.maxFrame < Bits.bound 32 := by decide
  cases flying with
  | nil =>
      have hnone : arrived = [] := (List.append_eq_nil_iff.mp h.symm).1
      subst hnone
      exact .inl ⟨rfl, fun _ => rfl⟩
  | cons frame others =>
      have hwhole : FrameCodec.standard.decode (arrived ++ more)
          = (.ok (some frame), others.flatMap delimited) := by
        rw [← h]
        exact FrameCodec.decode_delimited hmax (hfit frame List.mem_cons_self) _
      rcases FrameCodec.standard.decodes arrived with hwaits | ⟨_, -, -, hmore⟩ |
        ⟨first, rest, -, hdone, hmore⟩
      · refine .inl ⟨hwaits, fun hnone => ?_⟩
        rw [hnone, List.append_nil] at hwhole
        cases hwaits.symm.trans hwhole
      · cases (hmore more).symm.trans hwhole
      · obtain ⟨hframe, hrest⟩ := Prod.mk.inj ((hmore more).symm.trans hwhole)
        cases hframe
        exact .inr ⟨frame, rest, others, rfl, hdone, hrest.symm⟩

/-- The frames that a peer has for the other are delivered, on their way, or still to be written. -/
def Flow (frames : List Bytes) (sender receiver : Station) (duct : Duct) : Prop :=
  ∃ flying, frames = receiver.delivered ++ receiver.pump.inHand ++ flying ++ sender.queue
      ++ sender.ahead ∧
    flying.flatMap delimited = receiver.pump.arrived ++ (duct.held ++ sender.pump.unsent)

section

variable {frames : List Bytes} {sender receiver : Station} {incoming outgoing : Duct} {pump : Pump}
  {after : PumpWiring}

theorem Pump.Active.unsent_nil {pump : Pump} (h : pump.Active) (hphase : pump.phase = .selecting) :
    pump.unsent = [] := by
  cases h with
  | selecting _ hsent => exact hsent
  | delivering frame hother | sending hother => cases hphase.symm.trans hother

/-- The frame that is taken next is encoded. -/
theorem Flow.encodes (h : Flow frames sender receiver outgoing)
    (hfit : ∀ frame ∈ frames, frame.length ≤ maxWireFrame) (hunsent : sender.pump.unsent = [])
    {frame : Bytes} {queue : List Bytes} (hqueue : sender.queue = frame :: queue) :
    FrameCodec.standard.encode frame sender.pump.unsent = .ok (delimited frame) := by
  obtain ⟨flying, hframes, -⟩ := h
  have hframe : frame.length ≤ maxWireFrame := hfit frame (by simp [hframes, hqueue])
  rw [hunsent]
  exact FrameCodec.encode_fitting hframe []

/-- What has arrived is no error. -/
theorem Flow.readable (h : Flow frames sender receiver incoming)
    (hfit : ∀ frame ∈ frames, frame.length ≤ maxWireFrame) (cause : TransportError)
    (rest : Bytes) : FrameCodec.standard.decode receiver.pump.arrived ≠ (.error cause, rest) := by
  obtain ⟨flying, hframes, hbytes⟩ := h
  intro hdecode
  have hflying : ∀ frame ∈ flying, frame.length ≤ maxWireFrame := fun frame hmem =>
    hfit frame (by simp [hframes, hmem])
  rcases decode_front hflying hbytes with ⟨hnone, -⟩ | ⟨first, left, others, -, hfirst, -⟩
  · cases hnone.symm.trans hdecode
  · cases hfirst.symm.trans hdecode

theorem Pump.Active.unsent_ne {pump : Pump} (h : pump.Active) (hphase : pump.phase = .sending) :
    pump.unsent ≠ [] := by
  cases h with
  | sending _ hunsent => exact hunsent
  | selecting hother | delivering _ hother => cases hphase.symm.trans hother

theorem phaseAfterWrite_cases (unsent : Bytes) :
    Pump.phaseAfterWrite .sending unsent = .selecting ∧ unsent = [] ∨
      Pump.phaseAfterWrite .sending unsent = .sending ∧ unsent ≠ [] := by
  cases unsent with
  | nil => exact .inl ⟨rfl, rfl⟩
  | cons byte rest => exact .inr ⟨rfl, List.cons_ne_nil byte rest⟩

/-- **What the sender does keeps the flow.** -/
theorem Flow.send (h : Flow frames sender receiver outgoing) (hactive : sender.pump.Active)
    (hfit : ∀ frame ∈ frames, frame.length ≤ maxWireFrame)
    (hgoes : sender.pump.Goes (sender.wiring incoming outgoing) pump after) :
    Flow frames (sender.after pump after) receiver after.outgoing := by
  have hencodes := h.encodes hfit
  obtain ⟨flying, hframes, hbytes⟩ := h
  cases hgoes with
  | read | decode | misread | deliver => exact ⟨flying, hframes, hbytes⟩
  | take frame queue unsent hphase hqueue hencode =>
      have hqueue : sender.queue = frame :: queue := hqueue
      have hnone := hactive.unsent_nil hphase
      cases (hencodes hnone hqueue).symm.trans hencode
      refine ⟨flying ++ [frame], ?_, ?_⟩
      · simpa [Station.after, hqueue] using hframes
      · simp [Station.after, Station.wiring, hbytes, hnone]
  | overlong frame queue cause hphase hqueue hencode =>
      cases (hencodes (hactive.unsent_nil hphase) hqueue).symm.trans hencode
  | write count hphase hcount hsome =>
      refine ⟨flying, hframes, ?_⟩
      simp [Station.after, Station.wiring, Duct.accept, hbytes]

/-- **What the receiver does keeps the flow.** -/
theorem Flow.receive (h : Flow frames sender receiver incoming)
    (hfit : ∀ frame ∈ frames, frame.length ≤ maxWireFrame)
    (hgoes : receiver.pump.Goes (receiver.wiring incoming outgoing) pump after) :
    Flow frames sender (receiver.after pump after) after.incoming := by
  have hreadable := h.readable hfit
  obtain ⟨flying, hframes, hbytes⟩ := h
  cases hgoes with
  | read count hphase =>
      refine ⟨flying, ?_, ?_⟩
      · simpa [Station.after, Station.wiring, Pump.inHand, hphase] using hframes
      · show flying.flatMap delimited = receiver.pump.arrived ++ incoming.held.take count
          ++ (incoming.held.drop count ++ sender.pump.unsent)
        rw [hbytes, List.append_assoc, ← List.append_assoc (incoming.held.take count),
          List.take_append_drop]
  | decode frame rest hphase hdecode =>
      have hflying : ∀ one ∈ flying, one.length ≤ maxWireFrame := fun one hmem =>
        hfit one (by simp [hframes, hmem])
      rcases decode_front hflying hbytes with ⟨hnone, -⟩ |
        ⟨first, left, others, rfl, hfirst, hothers⟩
      · cases hnone.symm.trans hdecode
      · cases hfirst.symm.trans hdecode
        refine ⟨others, ?_, hothers⟩
        simpa [Station.after, Station.wiring, Pump.inHand, hphase] using hframes
  | misread cause rest hphase hdecode => exact absurd hdecode (hreadable cause rest)
  | deliver frame hphase =>
      refine ⟨flying, ?_, hbytes⟩
      simpa [Station.after, Station.wiring, Pump.inHand, hphase] using hframes
  | take frame queue unsent hphase hqueue hencode =>
      refine ⟨flying, ?_, hbytes⟩
      simpa [Station.after, Station.wiring, Pump.inHand, hphase] using hframes
  | overlong frame queue cause hphase hqueue hencode =>
      refine ⟨flying, ?_, hbytes⟩
      simpa [Station.after, Station.wiring, Pump.inHand, Pump.finish, hphase] using hframes
  | write count hphase hcount hsome =>
      refine ⟨flying, ?_, hbytes⟩
      rcases phaseAfterWrite_cases (receiver.pump.unsent.drop count) with
        ⟨hnext, -⟩ | ⟨hnext, -⟩ <;>
        simpa [Station.after, Station.wiring, Pump.inHand, hphase, hnext] using hframes

theorem delimited_ne_nil (frame : Bytes) : delimited frame ≠ [] := by
  intro hnone
  have hlength := congrArg List.length hnone
  rw [delimited, List.length_append, Bytes.length_bigEndian] at hlength
  exact absurd hlength (by simp [lengthFieldBytes])

/-- **A pump stays active**, as long as what comes and what goes are frames that fit. -/
theorem Pump.Goes.active {peer : Station} {sent : List Bytes} (hactive : receiver.pump.Active)
    (hin : Flow frames sender receiver incoming) (hout : Flow sent receiver peer outgoing)
    (hfitIn : ∀ frame ∈ frames, frame.length ≤ maxWireFrame)
    (hfitOut : ∀ frame ∈ sent, frame.length ≤ maxWireFrame)
    (hgoes : receiver.pump.Goes (receiver.wiring incoming outgoing) pump after) :
    pump.Active := by
  cases hgoes with
  | read count hphase => exact .selecting rfl (hactive.unsent_nil hphase)
  | decode frame rest hphase => exact .delivering frame rfl (hactive.unsent_nil hphase)
  | misread cause rest hphase hdecode => exact absurd hdecode (hin.readable hfitIn cause rest)
  | deliver frame hphase =>
      cases hactive with
      | delivering _ _ hsent => exact .selecting rfl hsent
      | selecting hother | sending hother => cases hphase.symm.trans hother
  | take frame queue unsent hphase hqueue hencode =>
      have hnone := hactive.unsent_nil hphase
      cases (hout.encodes hfitOut hnone hqueue).symm.trans hencode
      exact .sending rfl (delimited_ne_nil frame)
  | overlong frame queue cause hphase hqueue hencode =>
      cases (hout.encodes hfitOut (hactive.unsent_nil hphase) hqueue).symm.trans hencode
  | write count hphase hcount hsome =>
      rcases phaseAfterWrite_cases (receiver.pump.unsent.drop count) with
        ⟨hnext, hleft⟩ | ⟨hnext, hleft⟩
      · exact .selecting hnext hleft
      · exact .sending hnext hleft

end

/-- A stream of which both ends are there. -/
structure Duct.Intact (duct : Duct) (capacity : Nat) : Prop where
  closed : duct.isClosed = false
  broken : duct.isBroken = false
  room : duct.capacity = capacity

theorem Pump.Goes.intact {pump next : Pump} {wiring after : PumpWiring} {first second : Nat}
    (h : pump.Goes wiring next after) (hincoming : wiring.incoming.Intact first)
    (houtgoing : wiring.outgoing.Intact second) :
    after.incoming.Intact first ∧ after.outgoing.Intact second := by
  obtain ⟨hclosed, hbroken, hroom⟩ := hincoming
  obtain ⟨hclosed', hbroken', hroom'⟩ := houtgoing
  cases h <;> exact ⟨⟨hclosed, hbroken, hroom⟩, hclosed', hbroken', hroom'⟩

/-! ### Two peers -/

theorem Pump.Active.hasEnded {pump : Pump} (h : pump.Active) : pump.hasEnded = false := by
  unfold Pump.hasEnded
  cases h with
  | selecting hphase | delivering _ hphase | sending hphase => rw [hphase]

theorem Side.eq_or_eq_other (side one : Side) : one = side ∨ one = side.other := by
  cases side <;> cases one <;> decide

/-- Two peers and the stream between them. -/
structure Duplex where
  station : Side → Station
  /-- The bytes on their way from a side to the other. -/
  duct : Side → Duct

/-- A step of the two peers, whose sessions go on running. -/
inductive DuplexMove
  | pump (side : Side) (step : PumpStep)
  /-- The session writes its next frame. -/
  | post (side : Side)
  /-- The session's loop has room for another frame. -/
  | free (side : Side)

namespace Duplex

def wiring (duplex : Duplex) (side : Side) : PumpWiring :=
  (duplex.station side).wiring (duplex.duct side.other) (duplex.duct side)

/-- The peers after a pump did something.  A pump that has ended lets go of the stream. -/
def withPump (duplex : Duplex) (side : Side) (pump : Pump) (wiring : PumpWiring) : Duplex where
  station := Function.update duplex.station side ((duplex.station side).after pump wiring)
  duct := Function.update
    (Function.update duplex.duct side
      (if pump.hasEnded then wiring.outgoing.close else wiring.outgoing))
    side.other (if pump.hasEnded then wiring.incoming.breakOff else wiring.incoming)

def withStation (duplex : Duplex) (side : Side) (station : Station) : Duplex :=
  { duplex with station := Function.update duplex.station side station }

/-- The peers after a step; none if it cannot be taken. -/
def move? (duplex : Duplex) : DuplexMove → Option Duplex
  | .pump side step =>
    ((duplex.station side).pump.step? (duplex.wiring side) step).map fun (pump, wiring) =>
      duplex.withPump side pump wiring
  | .post side =>
    match (duplex.station side).ahead with
    | [] => none
    | frame :: ahead => some (duplex.withStation side { duplex.station side with
        ahead, queue := (duplex.station side).queue ++ [frame] })
  | .free side =>
    if (duplex.station side).inboxFree then none
    else some (duplex.withStation side { duplex.station side with inboxFree := true })

/-- The peers before anything was written. -/
def start (capacity : Side → Nat) (frames : Side → List Bytes) : Duplex where
  station side := ⟨.new, frames side, [], true, []⟩
  duct side := .new (capacity side)

def Moves (duplex next : Duplex) : Prop := ∃ move, duplex.move? move = some next

/-- Whatever comes of any steps. -/
def Reaches : Duplex → Duplex → Prop := Relation.ReflTransGen Moves

/-- The peers after some steps; none if one of them cannot be taken. -/
def run? (duplex : Duplex) (moves : List DuplexMove) : Option Duplex := moves.foldlM move? duplex

theorem reaches_of_run {moves : List DuplexMove} : ∀ {duplex next : Duplex},
    duplex.run? moves = some next → duplex.Reaches next := by
  induction moves with
  | nil =>
      intro duplex next h
      cases h
      exact .refl
  | cons move rest ih =>
      intro duplex next h
      obtain ⟨between, hmove, hrest⟩ := Option.bind_eq_some_iff.mp h
      exact .head ⟨move, hmove⟩ (ih hrest)

/-- Both pumps wait for the stream to take bytes, and it is full in both directions. -/
def Blocked (duplex : Duplex) : Prop :=
  ∀ side, (duplex.station side).pump.phase = .sending ∧ (duplex.duct side).room = 0

/-- No step can be taken. -/
def Still (duplex : Duplex) : Prop := ∀ move, duplex.move? move = none

/-- What is known of the peers at any time. -/
structure Sound (capacity : Side → Nat) (frames : Side → List Bytes) (duplex : Duplex) : Prop where
  active : ∀ side, (duplex.station side).pump.Active
  flow : ∀ side, Flow (frames side) (duplex.station side) (duplex.station side.other)
    (duplex.duct side)
  intact : ∀ side, (duplex.duct side).Intact (capacity side)

variable {capacity : Side → Nat} {frames : Side → List Bytes} {duplex next : Duplex}

theorem sound_start (capacity : Side → Nat) (frames : Side → List Bytes) :
    Sound capacity frames (start capacity frames) where
  active _ := .selecting rfl rfl
  flow _ := ⟨[], rfl, rfl⟩
  intact _ := ⟨rfl, rfl, rfl⟩

theorem forall_side {motive : Side → Prop} (side : Side) (h : motive side)
    (hother : motive side.other) (one : Side) : motive one := by
  rcases side.eq_or_eq_other one with rfl | rfl
  · exact h
  · exact hother

/-- What a session does keeps the peers sound. -/
theorem Sound.withStation (h : Sound capacity frames duplex) {side : Side} {station : Station}
    (hpump : station.pump = (duplex.station side).pump)
    (hdelivered : station.delivered = (duplex.station side).delivered)
    (hframes : station.queue ++ station.ahead
      = (duplex.station side).queue ++ (duplex.station side).ahead) :
    Sound capacity frames (duplex.withStation side station) := by
  obtain ⟨hactive, hflow, hintact⟩ := h
  have hsame : (duplex.withStation side station).station side = station := by
    simp [Duplex.withStation]
  have hother : (duplex.withStation side station).station side.other
      = duplex.station side.other := by
    simp [Duplex.withStation, Function.update_of_ne side.other_ne]
  refine ⟨forall_side side ?_ ?_, forall_side side ?_ ?_, hintact⟩
  · rw [hsame, hpump]
    exact hactive side
  · rw [hother]
    exact hactive side.other
  · obtain ⟨flying, hall, hbytes⟩ := hflow side
    rw [hsame, hother]
    refine ⟨flying, ?_, ?_⟩
    · rw [List.append_assoc, hframes, ← List.append_assoc]
      exact hall
    · rw [hpump]
      exact hbytes
  · obtain ⟨flying, hall, hbytes⟩ := hflow side.other
    rw [side.other_other] at hall hbytes ⊢
    rw [hsame, hother]
    refine ⟨flying, ?_, ?_⟩
    · rw [hpump, hdelivered]
      exact hall
    · rw [hpump]
      exact hbytes

theorem Sound.steady (h : Sound capacity frames duplex) (side : Side) :
    (duplex.wiring side).Steady :=
  ⟨(h.intact side.other).closed, (h.intact side).broken, rfl, rfl⟩

/-- What a pump does keeps the peers sound. -/
theorem Sound.withPump (h : Sound capacity frames duplex)
    (hfit : ∀ side, ∀ frame ∈ frames side, frame.length ≤ maxWireFrame) {side : Side} {pump : Pump}
    {wiring : PumpWiring}
    (hgoes : (duplex.station side).pump.Goes (duplex.wiring side) pump wiring) :
    Sound capacity frames (duplex.withPump side pump wiring) := by
  obtain ⟨hactive, hflow, hintact⟩ := h
  have hin : Flow (frames side.other) (duplex.station side.other) (duplex.station side)
      (duplex.duct side.other) := by
    have hin := hflow side.other
    rwa [side.other_other] at hin
  have hon := hgoes.active (hactive side) hin (hflow side) (hfit side.other) (hfit side)
  have hout := (hflow side).send (hactive side) (hfit side) hgoes
  have hin := hin.receive (hfit side.other) hgoes
  obtain ⟨hincoming, houtgoing⟩ := hgoes.intact (hintact side.other) (hintact side)
  have hstation : (duplex.withPump side pump wiring).station side
      = (duplex.station side).after pump wiring :=
    Function.update_self side _ duplex.station
  have hpeer : (duplex.withPump side pump wiring).station side.other
      = duplex.station side.other := Function.update_of_ne side.other_ne _ duplex.station
  have hductIn : (duplex.withPump side pump wiring).duct side.other = wiring.incoming := by
    simp [Duplex.withPump, hon.hasEnded]
  have hductOut : (duplex.withPump side pump wiring).duct side = wiring.outgoing := by
    simp [Duplex.withPump, hon.hasEnded, Function.update_of_ne side.other_ne.symm]
  refine ⟨forall_side side ?_ ?_, forall_side side ?_ ?_, forall_side side ?_ ?_⟩
  · rw [hstation]
    exact hon
  · rw [hpeer]
    exact hactive side.other
  · rw [hstation, hpeer, hductOut]
    exact hout
  · rw [side.other_other, hstation, hpeer, hductIn]
    exact hin
  · rw [hductOut]
    exact houtgoing
  · rw [hductIn]
    exact hincoming

/-- **A step keeps the peers sound.** -/
theorem Sound.move (h : Sound capacity frames duplex)
    (hfit : ∀ side, ∀ frame ∈ frames side, frame.length ≤ maxWireFrame) {move : DuplexMove}
    (hmove : duplex.move? move = some next) : Sound capacity frames next := by
  cases move with
  | pump side step =>
      obtain ⟨⟨pump, wiring⟩, hstep, rfl⟩ := Option.map_eq_some_iff.mp hmove
      exact h.withPump hfit (Pump.goes (h.active side) (h.steady side) hstep)
  | post side =>
      unfold move? at hmove
      rcases hahead : (duplex.station side).ahead with _ | ⟨frame, ahead⟩
      · simp [hahead] at hmove
      · simp only [hahead] at hmove
        cases hmove
        exact h.withStation rfl rfl (by simp [hahead])
  | free side =>
      obtain ⟨-, hnext⟩ := Option.ite_none_left_eq_some.mp hmove
      cases hnext
      exact h.withStation rfl rfl rfl

theorem Sound.reaches (h : Sound capacity frames duplex)
    (hfit : ∀ side, ∀ frame ∈ frames side, frame.length ≤ maxWireFrame)
    (hreaches : duplex.Reaches next) : Sound capacity frames next := by
  induction hreaches with
  | refl => exact h
  | tail _ hmoves ih =>
      obtain ⟨move, hmove⟩ := hmoves
      exact ih.move hfit hmove

end Duplex

end PathWire
