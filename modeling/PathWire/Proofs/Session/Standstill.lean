/-
Two peers on one stream can stand still.

A pump that has taken a frame writes all of it before it does anything else, so while the stream has
no room for the rest it does not read.  If both peers do this at once, and each of them waits for
the other to read, then neither ever goes on: not for bytes, not for the end of the stream, and not
for a shutdown signal.  It can happen exactly if both have more to say than the stream holds.  Short
of that there is something to do until every frame has come through.
-/
import PathWire.Proofs.Session.Duplex

namespace PathWire

open FrameCodec (delimited)

/-! ### Standing still -/

/-- **Nothing gets a pump out of a write for which there is no room**: no bytes that come, no end of
the stream that it reads, no end of its session and no shutdown signal. -/
theorem Pump.stuck {pump : Pump} {wiring : PumpWiring} (hphase : pump.phase = .sending)
    (hbroken : wiring.outgoing.isBroken = false) (hroom : wiring.outgoing.room = 0)
    (step : PumpStep) : pump.step? wiring step = none := by
  cases step with
  | write count => simp [step?, write, writeBytes, hphase, hbroken, hroom]
  | read => simp [step?, read, hphase]
  | decode => simp [step?, decode, hphase]
  | streamEnd => simp [step?, streamEnd, hphase]
  | deliver => simp [step?, deliver, hphase]
  | take => simp [step?, take, hphase]
  | sessionEnd => simp [step?, sessionEnd, hphase]
  | shutdown => simp [step?, shutdown, hphase]
  | finish => simp [step?, finishDraining, hphase]

namespace Duplex

variable {capacity : Side → Nat} {frames : Side → List Bytes} {duplex next : Duplex}

/-- A peer that can do nothing, with nothing to read and nothing to write. -/
structure Idle (duplex : Duplex) (side : Side) : Prop where
  selecting : (duplex.station side).pump.phase = .selecting
  waits : FrameCodec.standard.decode (duplex.station side).pump.arrived
    = (.ok none, (duplex.station side).pump.arrived)
  incoming : (duplex.duct side.other).held = []
  queue : (duplex.station side).queue = []
  ahead : (duplex.station side).ahead = []

/-- **A peer that can do nothing** has nothing to do, or no room to write. -/
theorem Sound.idle_or_full (h : Sound capacity frames duplex) (hstill : duplex.Still)
    (side : Side) : duplex.Idle side ∨
      (duplex.station side).pump.phase = .sending ∧ (duplex.duct side).room = 0 := by
  have hstep : ∀ step, (duplex.station side).pump.step? (duplex.wiring side) step = none :=
    fun step => Option.map_eq_none_iff.mp (hstill (.pump side step))
  cases h.active side with
  | selecting hphase hsent =>
      have hread := hstep (.read (duplex.duct side.other).held.length)
      have hdecode := hstep .decode
      have htake := hstep .take
      have hpost := hstill (.post side)
      simp only [Pump.step?, Pump.decode, hphase] at hdecode
      simp only [Pump.step?, Pump.take, Pump.takeFrame, hphase] at htake
      refine .inl ⟨hphase, ?_, ?_, ?_, ?_⟩
      · rcases FrameCodec.standard.decodes (duplex.station side).pump.arrived with
          hwaits | ⟨_, _, hrefused, -⟩ | ⟨_, _, _, hdone, -⟩
        · exact hwaits
        · simp [hrefused] at hdecode
        · simp [hdone] at hdecode
      · simpa [Pump.step?, Pump.read, hphase, wiring, Station.wiring] using hread
      · rcases hqueue : (duplex.wiring side).queue with _ | ⟨frame, queue⟩
        · exact hqueue
        · simp only [hqueue] at htake
          split at htake <;> cases htake
      · rcases hahead : (duplex.station side).ahead with _ | ⟨frame, ahead⟩
        · rfl
        · simp [move?, hahead] at hpost
  | delivering frame hphase hsent =>
      -- the loop has room, since nothing would be left to do otherwise
      have hdeliver := hstep .deliver
      have hfree := hstill (.free side)
      simp only [move?] at hfree
      have hroom : (duplex.station side).inboxFree = true := by
        by_contra hnone
        rw [if_neg hnone] at hfree
        cases hfree
      simp [Pump.step?, Pump.deliver, hphase, wiring, Station.wiring, hroom] at hdeliver
  | sending hphase hunsent =>
      have hwrite := hstep (.write (duplex.station side).pump.unsent.length)
      have hbroken : (duplex.wiring side).outgoing.isBroken = false := (h.intact side).broken
      refine .inr ⟨hphase, ?_⟩
      simp only [Pump.step?, Pump.write, Pump.writeBytes, hphase, hbroken, List.isEmpty_iff,
        if_neg hunsent, Bool.false_eq_true, if_false] at hwrite
      have hcount : min (duplex.station side).pump.unsent.length
          (duplex.wiring side).outgoing.room = 0 := by
        by_contra hsome
        rw [if_neg hsome] at hwrite
        cases hwrite
      have hlength := List.length_pos_iff.mpr hunsent
      have hroom : (duplex.wiring side).outgoing.room = 0 := by omega
      exact hroom

/-- **Peers that can do nothing** are blocked, or everything has come through. -/
theorem Sound.still (h : Sound capacity frames duplex) (hcapacity : ∀ side, 0 < capacity side)
    (hfit : ∀ side, ∀ frame ∈ frames side, frame.length ≤ maxWireFrame) (hstill : duplex.Still) :
    duplex.Blocked ∨ ∀ side, (duplex.station side.other).delivered = frames side := by
  -- a stream that is full holds something, so whoever reads it is not idle
  have hfull : ∀ side, duplex.Idle side → (duplex.duct side.other).room ≠ 0 := by
    intro side hidle
    have hpositive := hcapacity side.other
    unfold Duct.room
    rw [hidle.incoming, (h.intact side.other).room, List.length_nil]
    omega
  have hsides := h.idle_or_full hstill
  by_cases hleft : duplex.Idle .left
  · rcases hsides .right with hright | ⟨-, hroom⟩
    · refine .inr fun side => ?_
      have hboth : ∀ side, duplex.Idle side := forall_side .left hleft hright
      have hsender := hboth side
      have hreceiver := hboth side.other
      have hunsent := (h.active side).unsent_nil hsender.selecting
      have hheld : (duplex.duct side).held = [] := by
        have hheld := hreceiver.incoming
        rwa [side.other_other] at hheld
      obtain ⟨flying, hall, hbytes⟩ := h.flow side
      have hflying : ∀ frame ∈ flying, frame.length ≤ maxWireFrame := fun frame hmem =>
        hfit side frame (by simp [hall, hmem])
      rcases decode_front hflying hbytes with ⟨-, hnone⟩ | ⟨_, _, _, -, hdone, -⟩
      · have hflown : flying = [] := hnone (by rw [hheld, hunsent]; rfl)
        simp [hall, hflown, hsender.queue, hsender.ahead, Pump.inHand, hreceiver.selecting]
      · cases hreceiver.waits.symm.trans hdone
    · exact absurd hroom (hfull .left hleft)
  · obtain hsending := (hsides .left).resolve_left hleft
    rcases hsides .right with hright | hother
    · exact absurd hsending.2 (hfull .right hright)
    · exact .inl (forall_side .left hsending hother)

/-- **Blocked peers stay blocked.** -/
theorem Sound.blocked_move (h : Sound capacity frames duplex) (hblocked : duplex.Blocked)
    {move : DuplexMove} (hmove : duplex.move? move = some next) : next.Blocked := by
  have hstation : ∀ {side : Side} {station : Station},
      station.pump = (duplex.station side).pump → (duplex.withStation side station).Blocked := by
    intro side station hpump
    refine forall_side side ?_ ?_
    · simpa [Duplex.withStation, hpump] using hblocked side
    · simpa [Duplex.withStation, Function.update_of_ne side.other_ne] using hblocked side.other
  cases move with
  | pump side step =>
      obtain ⟨hphase, hroom⟩ := hblocked side
      obtain ⟨after, hstep, -⟩ := Option.map_eq_some_iff.mp hmove
      have hstuck : (duplex.station side).pump.step? (duplex.wiring side) step = none :=
        Pump.stuck hphase (h.intact side).broken hroom step
      cases hstuck.symm.trans hstep
  | post side =>
      unfold move? at hmove
      rcases hahead : (duplex.station side).ahead with _ | ⟨frame, ahead⟩
      · simp [hahead] at hmove
      · simp only [hahead] at hmove
        cases hmove
        exact hstation rfl
  | free side =>
      obtain ⟨-, hnext⟩ := Option.ite_none_left_eq_some.mp hmove
      cases hnext
      exact hstation rfl

/-! ### How peers come to stand still -/

/-- What one side does on its own: the other peer and what it has written stay as they are. -/
structure Alone (side : Side) (duplex next : Duplex) : Prop where
  reaches : duplex.Reaches next
  station : next.station side.other = duplex.station side.other
  duct : next.duct side.other = duplex.duct side.other

theorem Alone.refl (side : Side) (duplex : Duplex) : Alone side duplex duplex :=
  ⟨.refl, rfl, rfl⟩

theorem Alone.trans {side : Side} {between : Duplex} (h : Alone side duplex between)
    (hnext : Alone side between next) : Alone side duplex next :=
  ⟨h.reaches.trans hnext.reaches, hnext.station.trans h.station, hnext.duct.trans h.duct⟩

theorem withStation_station (duplex : Duplex) (side : Side) (station : Station) :
    (duplex.withStation side station).station side = station := by
  simp [withStation]

theorem alone_withStation {side : Side} {station : Station} {move : DuplexMove}
    (hmove : duplex.move? move = some (duplex.withStation side station)) :
    Alone side duplex (duplex.withStation side station) where
  reaches := .single ⟨move, hmove⟩
  station := by simp [withStation, Function.update_of_ne side.other_ne]
  duct := rfl

/-- What the session writes waits for the pump. -/
theorem post_all (side : Side) (ahead : List Bytes) : ∀ {duplex : Duplex},
    (duplex.station side).ahead = ahead → ∃ next, Alone side duplex next ∧
      next.duct side = duplex.duct side ∧
      next.station side = { duplex.station side with
        ahead := [], queue := (duplex.station side).queue ++ ahead } := by
  induction ahead with
  | nil =>
      intro duplex hahead
      refine ⟨duplex, .refl side duplex, rfl, ?_⟩
      rw [List.append_nil, ← hahead]
  | cons frame rest ih =>
      intro duplex hahead
      let posted := duplex.withStation side { duplex.station side with
        ahead := rest, queue := (duplex.station side).queue ++ [frame] }
      have hmove : duplex.move? (.post side) = some posted := by
        simp only [move?, hahead]
        rfl
      have hposted := duplex.withStation_station side { duplex.station side with
        ahead := rest, queue := (duplex.station side).queue ++ [frame] }
      have hahead : (posted.station side).ahead = rest := by rw [hposted]
      obtain ⟨next, halone, hduct, hnext⟩ := ih hahead
      refine ⟨next, (alone_withStation hmove).trans halone, hduct, ?_⟩
      rw [hnext, hposted]
      simp

variable {side : Side} {pump : Pump} {after : PumpWiring} {step : PumpStep}

/-- A pump that goes on without reading. -/
theorem alone_withPump
    (hstep : (duplex.station side).pump.step? (duplex.wiring side) step = some (pump, after))
    (hended : pump.hasEnded = false) (hincoming : after.incoming = duplex.duct side.other) :
    Alone side duplex (duplex.withPump side pump after) ∧
      (duplex.withPump side pump after).station side
        = (duplex.station side).after pump after ∧
      (duplex.withPump side pump after).duct side = after.outgoing := by
  have hmove : duplex.move? (.pump side step) = some (duplex.withPump side pump after) := by
    simp only [move?, hstep, Option.map_some]
  refine ⟨⟨.single ⟨_, hmove⟩, ?_, ?_⟩, ?_, ?_⟩
  · simp [withPump, Function.update_of_ne side.other_ne]
  · simp [withPump, hended, hincoming]
  · simp [withPump]
  · simp [withPump, hended, Function.update_of_ne side.other_ne.symm]

theorem room_accept (duct : Duct) (bytes : Bytes) :
    (duct.accept bytes).room = duct.room - bytes.length := by
  simp [Duct.room, Duct.accept, Nat.sub_sub]

/-- A pump that has nothing to send takes the next frame. -/
theorem take_frame {frame : Bytes} {queue : List Bytes}
    (hphase : (duplex.station side).pump.phase = .selecting)
    (hsent : (duplex.station side).pump.unsent = [])
    (hqueue : (duplex.station side).queue = frame :: queue)
    (hframe : frame.length ≤ maxWireFrame) :
    ∃ next, Alone side duplex next ∧ (next.station side).pump.phase = .sending ∧
      (next.station side).pump.unsent = delimited frame ∧ (next.station side).queue = queue ∧
      next.duct side = duplex.duct side := by
  have hencode : FrameCodec.standard.encode frame [] = .ok (delimited frame) :=
    FrameCodec.encode_fitting hframe []
  have hstep : (duplex.station side).pump.step? (duplex.wiring side) .take
      = some ({ (duplex.station side).pump with phase := .sending, unsent := delimited frame },
        { duplex.wiring side with queue }) := by
    simp [Pump.step?, Pump.take, Pump.takeFrame, hphase, hsent, wiring, Station.wiring, hqueue,
      hencode]
  obtain ⟨halone, hstation, hduct⟩ := alone_withPump hstep rfl rfl
  refine ⟨_, halone, ?_, ?_, ?_, hduct⟩ <;> rw [hstation] <;> rfl

/-- A pump writes what there is room for. -/
theorem write_bytes (hphase : (duplex.station side).pump.phase = .sending)
    (hunsent : (duplex.station side).pump.unsent ≠ [])
    (hbroken : (duplex.duct side).isBroken = false) (hroom : 0 < (duplex.duct side).room) :
    ∃ next, Alone side duplex next ∧
      (next.station side).pump.unsent
        = (duplex.station side).pump.unsent.drop (duplex.duct side).room ∧
      (next.station side).pump.phase
        = Pump.phaseAfterWrite .sending (next.station side).pump.unsent ∧
      (next.station side).queue = (duplex.station side).queue ∧
      next.duct side = (duplex.duct side).accept
        ((duplex.station side).pump.unsent.take (duplex.duct side).room) := by
  have hwiring : (duplex.wiring side).outgoing = duplex.duct side := rfl
  have hstep : (duplex.station side).pump.step? (duplex.wiring side)
      (.write (duplex.duct side).room)
      = some ({ (duplex.station side).pump with
          phase := Pump.phaseAfterWrite .sending
            ((duplex.station side).pump.unsent.drop (duplex.duct side).room)
          unsent := (duplex.station side).pump.unsent.drop (duplex.duct side).room },
        { duplex.wiring side with
          outgoing := (duplex.duct side).accept
            ((duplex.station side).pump.unsent.take (duplex.duct side).room) }) := by
    simp only [Pump.step?, Pump.write, Pump.writeBytes, hphase, hwiring, hbroken, Nat.min_self,
      List.isEmpty_iff, if_neg hunsent, if_neg (Nat.ne_of_gt hroom), Bool.false_eq_true, if_false]
  have hended : ∀ unsent, (Pump.mk (Pump.phaseAfterWrite .sending unsent)
      (duplex.station side).pump.arrived unsent).hasEnded = false := by
    intro unsent
    rcases phaseAfterWrite_cases unsent with ⟨hnext, -⟩ | ⟨hnext, -⟩ <;>
      simp [Pump.hasEnded, hnext]
  obtain ⟨halone, hstation, hduct⟩ := alone_withPump hstep (hended _) rfl
  refine ⟨_, halone, ?_, ?_, ?_, hduct⟩ <;> rw [hstation] <;> rfl

/-- **A pump writes until there is no more room**, if there is more to write. -/
theorem fill (side : Side) (queue : List Bytes) : ∀ {duplex : Duplex},
    (duplex.station side).pump.phase = .selecting → (duplex.station side).pump.unsent = [] →
    (duplex.station side).queue = queue → (duplex.duct side).isBroken = false →
    (∀ frame ∈ queue, frame.length ≤ maxWireFrame) →
    (duplex.duct side).room < (queue.flatMap delimited).length →
    ∃ next, Alone side duplex next ∧ (next.station side).pump.phase = .sending ∧
      (next.duct side).room = 0 := by
  induction queue with
  | nil =>
      intro duplex _ _ _ _ _ hroom
      exact absurd hroom (Nat.not_lt_zero _)
  | cons frame rest ih =>
      intro duplex hphase hsent hqueue hbroken hfit hroom
      obtain ⟨hframe, hrest⟩ := List.forall_mem_cons.mp hfit
      obtain ⟨taken, htaken, hsending, hunsent, hleft, hduct⟩ :=
        take_frame hphase hsent hqueue hframe
      rcases Nat.eq_zero_or_pos (duplex.duct side).room with hfull | hsome
      · exact ⟨taken, htaken, hsending, hduct ▸ hfull⟩
      have hbroken : (taken.duct side).isBroken = false := hduct ▸ hbroken
      obtain ⟨written, hwritten, hgone, hphase, hqueue, hheld⟩ :=
        write_bytes hsending (hunsent ▸ delimited_ne_nil frame) hbroken (hduct ▸ hsome)
      rw [hunsent, hduct] at hgone hheld
      have hnext : Alone side duplex written := htaken.trans hwritten
      rcases Nat.lt_or_ge (duplex.duct side).room (delimited frame).length with hlong | hshort
      · -- a part of the frame is left over
        have hrest : (delimited frame).drop (duplex.duct side).room ≠ [] := by
          rw [Ne, List.drop_eq_nil_iff]
          omega
        rw [← hgone] at hrest
        refine ⟨written, hnext, ?_, ?_⟩
        · rw [hphase]
          exact (phaseAfterWrite_cases _).resolve_left (fun hdone => hrest hdone.2) |>.1
        · rw [hheld, room_accept, List.length_take]
          omega
      · have hdone : (delimited frame).drop (duplex.duct side).room = [] :=
          List.drop_eq_nil_iff.mpr hshort
        rw [hdone] at hgone
        rw [hgone] at hphase
        have hroom : (written.duct side).room < (rest.flatMap delimited).length := by
          rw [List.flatMap_cons, List.length_append] at hroom
          rw [hheld, room_accept, List.length_take]
          omega
        have hbroken : (written.duct side).isBroken = false := by
          rw [hheld, ← hduct]
          exact hbroken
        obtain ⟨next, hfill, hend⟩ := ih hphase hgone (hqueue.trans hleft) hbroken hrest hroom
        exact ⟨next, hnext.trans hfill, hend⟩

/-- A side that has more to say than its stream holds comes to wait for room. -/
theorem side_fills (hfit : ∀ frame ∈ frames side, frame.length ≤ maxWireFrame)
    (hmore : capacity side < ((frames side).flatMap delimited).length)
    (hstation : duplex.station side = (start capacity frames).station side)
    (hduct : duplex.duct side = .new (capacity side)) :
    ∃ next, Alone side duplex next ∧ (next.station side).pump.phase = .sending ∧
      (next.duct side).room = 0 := by
  have hahead : (duplex.station side).ahead = frames side := congrArg Station.ahead hstation
  obtain ⟨posted, hposted, hsame, hwritten⟩ := post_all side (frames side) hahead
  rw [hstation] at hwritten
  have hphase : (posted.station side).pump.phase = .selecting := by rw [hwritten]; rfl
  have hsent : (posted.station side).pump.unsent = [] := by rw [hwritten]; rfl
  have hqueue : (posted.station side).queue = frames side := by rw [hwritten]; rfl
  have hbroken : (posted.duct side).isBroken = false := by rw [hsame, hduct]; rfl
  have hroom : (posted.duct side).room < ((frames side).flatMap delimited).length := by
    rw [hsame, hduct]
    exact hmore
  obtain ⟨next, hfill, hend⟩ := fill side (frames side) hphase hsent hqueue hbroken hfit hroom
  exact ⟨next, hposted.trans hfill, hend⟩

/-- **Peers come to stand still** if both have more to say than their streams hold. -/
theorem reaches_blocked (hfit : ∀ side, ∀ frame ∈ frames side, frame.length ≤ maxWireFrame)
    (hmore : ∀ side, capacity side < ((frames side).flatMap delimited).length) :
    ∃ next, (start capacity frames).Reaches next ∧ next.Blocked := by
  have hbegin : ∃ next, Alone .left (start capacity frames) next ∧
      (next.station .left).pump.phase = .sending ∧ (next.duct .left).room = 0 :=
    side_fills (hfit .left) (hmore .left) rfl rfl
  obtain ⟨first, hfirst, hleft⟩ := hbegin
  obtain ⟨second, hsecond, hright⟩ :=
    side_fills (hfit .right) (hmore .right) hfirst.station hfirst.duct
  refine ⟨second, hfirst.reaches.trans hsecond.reaches, forall_side .left ?_ hright⟩
  have hstation : second.station .left = first.station .left := hsecond.station
  have hduct : second.duct .left = first.duct .left := hsecond.duct
  rw [hstation, hduct]
  exact hleft

/-- Blocked peers both have more to say than their streams hold. -/
theorem Sound.blocked_more (h : Sound capacity frames duplex) (hblocked : duplex.Blocked)
    (side : Side) : capacity side < ((frames side).flatMap delimited).length := by
  obtain ⟨hphase, hroom⟩ := hblocked side
  obtain ⟨flying, hall, hbytes⟩ := h.flow side
  have hunsent := List.length_pos_iff.mpr ((h.active side).unsent_ne hphase)
  have hlength := congrArg List.length hbytes
  unfold Duct.room at hroom
  rw [(h.intact side).room] at hroom
  simp only [List.length_append] at hlength
  simp only [hall, List.flatMap_append, List.length_append]
  omega

end Duplex

/-- What becomes of two peers with frames for each other. -/
structure Duplex.Course (capacity : Side → Nat) (frames : Side → List Bytes) : Prop where
  /-- Frames come through in order. -/
  order : ∀ {duplex}, (start capacity frames).Reaches duplex →
    ∀ side, (duplex.station side.other).delivered <+: frames side
  /-- Something is left to do until all of them have come through, unless both pumps are blocked. -/
  still : ∀ {duplex}, (start capacity frames).Reaches duplex → duplex.Still →
    duplex.Blocked ∨ ∀ side, (duplex.station side.other).delivered = frames side
  /-- Nothing gets the pumps out of this, whatever comes to them. -/
  stuck : ∀ {duplex}, (start capacity frames).Reaches duplex → duplex.Blocked →
    ∀ side (wiring : PumpWiring), wiring.outgoing = duplex.duct side →
      ∀ step, (duplex.station side).pump.step? wiring step = none
  forGood : ∀ {duplex next}, (start capacity frames).Reaches duplex → duplex.Blocked →
    duplex.Reaches next → next.Blocked
  blocks : (∃ duplex, (start capacity frames).Reaches duplex ∧ duplex.Blocked) ↔
    ∀ side, capacity side < ((frames side).flatMap delimited).length

/-- **Two peers on a stream can stand still for good exactly if both have more to say than the
stream holds**, at any capacity. -/
theorem peers_standstill {capacity : Side → Nat} (hcapacity : ∀ side, 0 < capacity side)
    {frames : Side → List Bytes}
    (hfit : ∀ side, ∀ frame ∈ frames side, frame.length ≤ maxWireFrame) :
    Duplex.Course capacity frames := by
  have hsound : ∀ {duplex}, (Duplex.start capacity frames).Reaches duplex →
      Duplex.Sound capacity frames duplex :=
    fun hreaches => (Duplex.sound_start capacity frames).reaches hfit hreaches
  constructor
  case order =>
    intro duplex hreaches side
    obtain ⟨flying, hall, -⟩ := (hsound hreaches).flow side
    exact ⟨_, by rw [hall, List.append_assoc, List.append_assoc, List.append_assoc]⟩
  case still => exact fun hreaches => (hsound hreaches).still hcapacity hfit
  case stuck =>
    intro duplex hreaches hblocked side wiring hwiring step
    obtain ⟨hphase, hroom⟩ := hblocked side
    have hbroken := ((hsound hreaches).intact side).broken
    rw [← hwiring] at hroom hbroken
    exact Pump.stuck hphase hbroken hroom step
  case forGood =>
    intro duplex next hreaches hblocked hnext
    induction hnext with
    | refl => exact hblocked
    | @tail between next hbefore hmoves ih =>
        obtain ⟨move, hmove⟩ := hmoves
        exact (hsound (hreaches.trans hbefore)).blocked_move ih hmove
  case blocks =>
    constructor
    · rintro ⟨duplex, hreaches, hblocked⟩ side
      exact (hsound hreaches).blocked_more hblocked side
    · exact Duplex.reaches_blocked hfit

/-! A frame of one byte on each side of a stream that holds one byte. -/

def briefFrames : Side → List Bytes := fun _ => [[7]]

theorem brief_peers_standstill :
    (∀ side, ∀ frame ∈ briefFrames side, frame.length ≤ maxWireFrame) ∧
      ∃ duplex, (Duplex.start (fun _ => 1) briefFrames).Reaches duplex ∧ duplex.Blocked := by
  have hfit : ∀ side, ∀ frame ∈ briefFrames side, frame.length ≤ maxWireFrame := by
    simp [briefFrames, maxWireFrame]
  have hcourse := peers_standstill (fun _ => Nat.one_pos) hfit
  exact ⟨hfit, hcourse.blocks.mpr fun side => by cases side <;> decide⟩

/-- Each side writes the first byte of its frame, and neither reads it. -/
theorem brief_peers_block : ¬ ∀ (capacity : Nat) (frames : Side → List Bytes) (duplex : Duplex),
    0 < capacity → (Duplex.start (fun _ => capacity) frames).Reaches duplex →
      ¬ duplex.Blocked := by
  intro hnever
  have hblocked : ∃ duplex, Duplex.run? (Duplex.start (fun _ => 1) briefFrames)
      [.post .left, .pump .left .take, .pump .left (.write 1), .post .right, .pump .right .take,
        .pump .right (.write 1)] = some duplex ∧ duplex.Blocked :=
    ⟨_, rfl, fun side => by cases side <;> exact ⟨rfl, rfl⟩⟩
  obtain ⟨duplex, hrun, hblocked⟩ := hblocked
  exact hnever 1 briefFrames duplex Nat.one_pos (Duplex.reaches_of_run hrun) hblocked

end PathWire
