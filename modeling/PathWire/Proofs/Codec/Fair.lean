/-
Whose fault a failed read is.

A read fails for what the bytes are, or because it was asked for something that no bytes could
give: a number of no bits, or one of no ordinals.  The methods of a decoder leave the second kind of
failure to those two parameters, so a codec that is put together from methods with fair parameters
is never to blame, whatever the bytes are.
-/
import PathWire.Proofs.Codec.Parts

namespace PathWire

/-- A cause that is not the fault of the local side. -/
def CodecError.Blameless (cause : CodecError) : Prop := cause.kind ≠ .misuse

theorem CodecError.blameless_of_malformed {cause : CodecError} (h : cause.kind = .malformed) :
    cause.Blameless := by
  intro hmisuse
  rw [h] at hmisuse
  cases hmisuse

theorem CodecError.blameless_of_debugMismatch {cause : CodecError}
    (h : cause.kind = .debugMismatch) : cause.Blameless := by
  intro hmisuse
  rw [h] at hmisuse
  cases hmisuse

open CodecError

/-- A step that fails through no fault of the local side only. -/
abbrev Step.Fair {σ α : Type} (step : EStateM CodecError σ α) : Prop :=
  Step.Safe (fun _ => True) CodecError.Blameless step fun _ => True

open Step (Fair)

theorem Step.Fair.then {σ α β : Type} {step : EStateM CodecError σ α}
    {next : α → EStateM CodecError σ β} (hstep : Fair step) (hnext : ∀ answer, Fair (next answer)) :
    Fair (step >>= next) :=
  hstep.bind fun answer _ => hnext answer

/-- A step that cannot fail. -/
theorem Step.fair_of_ok {σ α : Type} {step : EStateM CodecError σ α}
    (h : ∀ state, ∃ answer after, step state = .ok answer after) : Fair step := by
  intro state _
  obtain ⟨answer, after, hok⟩ := h state
  rw [hok]
  exact ⟨trivial, trivial⟩

/-! ### The parts of a method -/

theorem Varint.Part.fair {α : Type} {step : ByteReader α} (h : Part α step) : Fair step := by
  cases h
  intro bytes _
  cases bytes with
  | nil => exact ⟨trivial, blameless_of_malformed rfl⟩
  | cons byte rest => exact ⟨trivial, trivial⟩

namespace Reader

/-- The log that a checking decoder follows is not the local side's fault either. -/
theorem fair_expect (op : Op) : Fair (expect op) := by
  refine Step.Safe.look.bind fun dec _ => ?_
  cases dec.check with
  | none => exact .pure trivial
  | some check =>
      cases hwritten : check.log[check.cursor]? with
      | none =>
          simp only [hwritten]
          exact .refuse (blameless_of_debugMismatch rfl)
      | some written =>
          by_cases hsame : written = op
          · simp only [hwritten, if_pos hsame]
            exact Step.fair_of_ok fun before => ⟨(), _, rfl⟩
          · simp only [hwritten, if_neg hsame]
            exact .refuse (blameless_of_debugMismatch rfl)

theorem fair_take (count : Nat) : Fair (take count) := by
  refine Step.Fair.then ?_ fun _ => Step.fair_of_ok fun dec => ⟨_, _, rfl⟩
  refine Step.Safe.look.bind fun dec _ => ?_
  by_cases hshort : dec.remaining < count
  · simp only [if_pos hshort]
    exact .refuse (blameless_of_malformed rfl)
  · simp only [if_neg hshort]
    exact .pure trivial

theorem fair_onBytes {α : Type} {step : ByteReader α} (h : Fair step) : Fair (onBytes step) := by
  intro dec _
  unfold onBytes
  cases hstep : step dec.rest with
  | ok value rest => exact ⟨trivial, trivial⟩
  | error cause rest => exact ⟨trivial, (h.error trivial hstep).2⟩

theorem fair_pullBit : Fair pullBit := by
  intro dec _
  obtain ⟨rest, rolling, check⟩ := dec
  cases rolling with
  | cons bit others => exact ⟨trivial, trivial⟩
  | nil =>
      cases rest with
      | nil => exact ⟨trivial, blameless_of_malformed rfl⟩
      | cons byte others => exact ⟨trivial, trivial⟩

theorem Part.fair {α : Type} {read : Reader α} (h : Part α read) : Fair read := by
  cases h with
  | align => exact Step.fair_of_ok fun dec => ⟨(), { dec with rolling := [] }, rfl⟩
  | pullBit => exact fair_pullBit
  | take count => exact fair_take count
  | onBytes h => exact fair_onBytes (h.safe Varint.Part.fair fun _ => blameless_of_malformed)

/-- A read that looks at the log and then at the bytes fails for what they are only. -/
theorem Guarded.fair {α : Type} {op : Op} {read : Reader α} (h : Guarded op read) : Fair read := by
  obtain ⟨body, hbody, rfl⟩ := h
  exact (fair_expect op).then fun _ => hbody.safe Part.fair fun _ => blameless_of_malformed

/-! ### The methods -/

/-- The methods of a decoder, with parameters that they accept. -/
inductive Method : ∀ α : Type, Reader α → Prop
  | bool : Method _ bool
  | bits {width : Nat} (h : isBitCount width = true) : Method _ (bits width)
  | enum {count : Nat} (h : 0 < count) : Method _ (enum count)
  | u8 : Method _ u8
  | u16 : Method _ u16
  | u32 : Method _ u32
  | u64 : Method _ u64
  | f32 : Method _ f32
  | f64 : Method _ f64
  | varI32 : Method _ varI32
  | varI64 : Method _ varI64
  | varU32 : Method _ varU32
  | varU64 : Method _ varU64
  | byteBlock (limit : Nat) : Method _ (byteBlock limit)
  | str (limit : Nat) : Method _ (str limit)
  | identifier : Method _ identifier
  | identifier? : Method _ identifier?
  | enumValue {E : Type} {kind : WireEnum E} (h : 0 < kind.count) : Method _ (enumValue kind)
  /-- A step that cannot fail, such as a look at what is left. -/
  | free {α : Type} {step : Reader α} (h : ∀ dec, ∃ answer after, step dec = .ok answer after) :
      Method α step

/-- **A method with a parameter that it accepts fails for what the bytes are only.** -/
theorem Method.fair {α : Type} {read : Reader α} (h : Method α read) : Fair read := by
  cases h with
  | bool => exact guarded_bool.fair
  | bits h => exact (guarded_bits h).fair
  | enum h => exact (guarded_enum (Nat.ne_of_gt h)).fair
  | u8 | u16 | u32 | u64 | f32 | f64 => exact ((guarded_word _ _).map _).fair
  | varI32 => exact (guarded_varint _ Varint.body_getI32).fair
  | varI64 => exact (guarded_varint _ Varint.body_getI64).fair
  | varU32 => exact (guarded_varint _ Varint.body_getU32).fair
  | varU64 => exact (guarded_varint _ Varint.body_getU64).fair
  | byteBlock limit => exact (guarded_byteBlock limit).fair
  | str limit => exact (guarded_str limit).fair
  | identifier => exact guarded_identifier.fair
  | identifier? => exact guarded_identifier?.fair
  | @enumValue E kind h =>
      refine (guarded_enum (Nat.ne_of_gt h)).fair.then fun ordinal => ?_
      cases kind.ofOrdinal ordinal with
      | some value => exact .pure trivial
      | none => exact .refuse (blameless_of_malformed rfl)
  | free h => exact Step.fair_of_ok h

/-- A codec that calls the methods of its decoder with parameters that they accept, and refuses on
its own account for what it has read only. -/
abbrev Careful {α : Type} (read : Reader α) : Prop :=
  Step.Composed Method CodecError.Blameless read

/-- **Such a codec is never to blame.** -/
theorem Careful.fair {α : Type} {read : Reader α} (h : read.Careful) : Fair read :=
  Step.Composed.safe Method.fair (fun _ hcause => hcause) h

end Reader

end PathWire
