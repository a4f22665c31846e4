/-
Whether coalescing can spoil messages for a stream.

A batcher keeps its frames within the limit of its settings, and a stream takes frames up to a bound
of its own.  A limit within this bound is enough: a frame is within the limit, or it is a message
that was too long for the limit and travels as it is.  A larger limit never is: two messages of half
the bound each can be sent alone, but their container cannot, and the pump that finds it in its
queue ends.  The settings are checked without a look at the bound, so both kinds pass.
-/
import PathWire.Proofs.Frame.Chunks
import PathWire.Proofs.Frame.Sizes
import PathWire.Session.Config
import PathWire.Session.Pump

namespace PathWire

/-! ### Frames for a stream -/

/-- A frame that a stream takes. -/
def Sendable (frame : Bytes) : Prop :=
  ∀ buffer, ∃ after, FrameCodec.standard.encode frame buffer = .ok after

/-- A frame that a pump takes from the session without ending, whenever it takes one. -/
def Pumpable (frame : Bytes) : Prop :=
  ∀ (pump : Pump) (wiring : PumpWiring) (queue : List Bytes),
    (pump.phase = .selecting ∨ ∃ wait, pump.phase = .draining wait) →
      wiring.queue = frame :: queue →
        ∃ next after, pump.take wiring = some (next, after) ∧ next.hasEnded = false

variable {frame : Bytes}

theorem sendable_iff : Sendable frame ↔ frame.length ≤ maxWireFrame := by
  constructor
  · intro h
    by_contra hlong
    have hrefused : FrameCodec.standard.encode frame []
        = .error (.frameTooLarge frame.length maxWireFrame) := if_pos (Nat.lt_of_not_le hlong)
    obtain ⟨after, hencode⟩ := h []
    rw [hrefused] at hencode
    cases hencode
  · intro h buffer
    exact ⟨_, FrameCodec.encode_fitting h buffer⟩

/-- **A pump takes what its stream takes, and ends at any other frame.** -/
theorem pumpable_iff : Pumpable frame ↔ Sendable frame := by
  constructor
  · intro h buffer
    obtain ⟨next, after, htake, hgoes⟩ := h ⟨.selecting, [], buffer⟩
      ⟨.new 0, .new 0, [frame], false, false, false, []⟩ [] (.inl rfl) rfl
    simp only [Pump.take, Pump.takeFrame] at htake
    cases hencode : FrameCodec.standard.encode frame buffer with
    | ok unsent => exact ⟨unsent, rfl⟩
    | error cause =>
        simp only [hencode, Option.some.injEq, Prod.mk.injEq] at htake
        obtain ⟨rfl, -⟩ := htake
        cases hgoes
  · intro h pump wiring queue hphase hqueue
    obtain ⟨unsent, hencode⟩ := h pump.unsent
    rcases hphase with hphase | ⟨wait, hphase⟩
    · simp only [Pump.take, Pump.takeFrame, hphase, hqueue, hencode]
      exact ⟨_, _, rfl, rfl⟩
    · simp only [Pump.take, Pump.takeFrame, hphase, hqueue, hencode]
      exact ⟨_, _, rfl, rfl⟩

/-! ### Settings -/

/-- Whatever is pushed and flushed, as long as every message could be sent alone: the batcher of
these settings fails in no call, and every frame that it gives goes onto the stream. -/
def SessionConfig.KeepsSendable (config : SessionConfig) : Prop :=
  ∀ (calls : List BatcherCall) (call : BatcherCall),
    (∀ other ∈ calls ++ [call], ∀ message ∈ other.messages, Sendable message) →
      ∃ frames,
        (call.run ((Batcher.new config.session.maxFrameBytes).after calls)).1 = .ok frames ∧
          ∀ frame ∈ frames, Sendable frame ∧ Pumpable frame

/-- Within the bound of a stream a call gives what a stream takes: its frames are within the limit,
or its own message is among them. -/
theorem Batcher.Tallied.sendable {batcher : Batcher} (h : batcher.Tallied)
    (hlimit : batcher.maxFrameBytes ≤ maxWireFrame) {call : BatcherCall}
    (hcall : ∀ message ∈ call.messages, Sendable message) :
    ∃ frames, (call.run batcher).1 = .ok frames ∧ ∀ frame ∈ frames, Sendable frame := by
  have hfield : maxWireFrame ≤ maxLengthField := by decide
  have hpack : Packable batcher.maxFrameBytes (batcher.queue ++ call.messages) :=
    .of_limit (Nat.le_trans hlimit hfield) _
  obtain ⟨frames, hrun⟩ := h.run_ok hpack
  refine ⟨frames, hrun, fun frame hframe => ?_⟩
  rcases (h.emits hrun).small frame hframe with hsmall | ⟨message, rfl, rfl, -⟩
  · exact sendable_iff.mpr (Nat.le_trans hsmall hlimit)
  · exact hcall _ (List.mem_singleton.mpr rfl)

/-- A limit within the bound is enough. -/
theorem SessionConfig.keepsSendable {config : SessionConfig}
    (h : config.session.maxFrameBytes ≤ maxWireFrame) : config.KeepsSendable := by
  intro calls call hsendable
  obtain ⟨htallied, hkept⟩ := (Batcher.tallied_new config.session.maxFrameBytes).after calls
  obtain ⟨frames, hrun, hframes⟩ := htallied.sendable (hkept ▸ h)
    (hsendable call (List.mem_append_right _ (List.mem_singleton.mpr rfl)))
  exact ⟨frames, hrun, fun frame hframe =>
    ⟨hframes frame hframe, pumpable_iff.mpr (hframes frame hframe)⟩⟩

namespace Batcher

/-! ### Two messages in one frame -/

variable {limit : Nat} {first second : Bytes}

/-- A flush gives the container of two messages that keep the limit together. -/
theorem flush_ofPair (h : containerSize [first, second] ≤ limit)
    (hfirst : first.length ≤ maxLengthField) (hsecond : second.length ≤ maxLengthField) :
    ∃ frame, (BatcherCall.flush.run (ofPair limit first second)).1 = .ok [frame] ∧
      frame.length = containerSize [first, second] := by
  have hlengths : ∀ message ∈ [first, second], message.length ≤ maxLengthField := by
    simp [hfirst, hsecond]
  obtain ⟨frame, hcontainer⟩ := container_ok_iff.mpr hlengths
  have hqueue := queue_ofPair h
  have hflush : (ofPair limit first second).flush.1 = .ok (some frame) := by
    rw [flush_eq_ok (by simp [hqueue]), hqueue]
    exact hcontainer
  refine ⟨frame, ?_, length_container_eq (by simp) hcontainer⟩
  rw [BatcherCall.run, flushAfter_eq, hflush]
  rfl

end Batcher

/-! ### A limit above the bound -/

/-- Half of what a stream takes. -/
def halfFrame : Bytes := List.replicate 8388608 0

/-- A little less than the other half: their container is one byte too long for a stream. -/
def otherHalf : Bytes := List.replicate 8388596 0

theorem halves : Sendable halfFrame ∧ Sendable otherHalf ∧
    Batcher.containerSize [halfFrame, otherHalf] = maxWireFrame + 1 := by
  have hhalf : halfFrame.length = 8388608 := List.length_replicate
  have hother : otherHalf.length = 8388596 := List.length_replicate
  refine ⟨sendable_iff.mpr ?_, sendable_iff.mpr ?_, ?_⟩
  · rw [hhalf]
    decide
  · rw [hother]
    decide
  · rw [Batcher.containerSize_pair, hhalf, hother]
    decide +kernel

theorem SessionConfig.not_keepsSendable {config : SessionConfig}
    (h : maxWireFrame < config.session.maxFrameBytes) : ¬ config.KeepsSendable := by
  intro hkeeps
  obtain ⟨hhalf, hother, hsize⟩ := halves
  have hfield : maxWireFrame ≤ maxLengthField := by decide
  have hfits : Batcher.containerSize [halfFrame, otherHalf] ≤ config.session.maxFrameBytes := by
    omega
  obtain ⟨frame, hframe, hlength⟩ := Batcher.flush_ofPair hfits
    (Nat.le_trans (sendable_iff.mp hhalf) hfield) (Nat.le_trans (sendable_iff.mp hother) hfield)
  obtain ⟨frames, hrun, hall⟩ := hkeeps
    [.push ⟨halfFrame, .normal⟩, .push ⟨otherHalf, .normal⟩] .flush
    (by simp [BatcherCall.messages, hhalf, hother])
  obtain rfl := Except.ok.inj (hframe.symm.trans hrun)
  have hshort := sendable_iff.mp (hall frame (List.mem_singleton.mpr rfl)).1
  omega

/-- **Coalescing keeps messages sendable exactly if the limit of a frame is within the bound of the
stream.** -/
theorem coalescing_sendable (config : SessionConfig) :
    config.KeepsSendable ↔ config.session.maxFrameBytes ≤ maxWireFrame := by
  constructor
  · intro hkeeps
    by_contra hlong
    exact SessionConfig.not_keepsSendable (Nat.lt_of_not_le hlong) hkeeps
  · exact SessionConfig.keepsSendable

/-- Settings that pass, with frames of up to twice the bound. -/
def SessionConfig.wide : SessionConfig := { session := { maxFrameBytes := 33554432 } }

theorem wide_not_sendable :
    ¬ ∀ config : SessionConfig, config.validate = .ok () → config.KeepsSendable := by
  intro hall
  have hvalid : SessionConfig.wide.validate = .ok () := rfl
  exact SessionConfig.not_keepsSendable (by decide) (hall SessionConfig.wide hvalid)

end PathWire
