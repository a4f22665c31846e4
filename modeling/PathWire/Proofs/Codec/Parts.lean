/-
What reads are made of.

Every read looks at its parameter, then at the log, and from then on at the bytes.  It looks at
them in four ways only: it drops the rolling byte, pulls a bit, takes some bytes or reads a number
of variable size.  Whatever holds of these and survives being done one after the other therefore
holds of everything a read does behind the check, and what a read asks of the log can be told from
the read alone.
-/
import PathWire.Codec.Field
import PathWire.Proofs.Basic

namespace PathWire

/-! ### Steps in a row -/

namespace Step

variable {ε σ α β : Type} {basic : ∀ α : Type, EStateM ε σ α → Prop} {own : ε → Prop}

/-- A step that is put together from basic ones and from refusals of its own, and catches none. -/
inductive Chain (basic : ∀ α : Type, EStateM ε σ α → Prop) (own : ε → Prop) :
    ∀ {α : Type}, EStateM ε σ α → Prop
  | basic {α : Type} {step : EStateM ε σ α} (h : basic α step) : Chain basic own step
  | pure {α : Type} (answer : α) : Chain basic own (Pure.pure answer : EStateM ε σ α)
  | refuse {α : Type} {cause : ε} (h : own cause) :
      Chain basic own (throw cause : EStateM ε σ α)
  | bind {α β : Type} {step : EStateM ε σ α} {next : α → EStateM ε σ β}
      (hstep : Chain basic own step) (hnext : ∀ answer, Chain basic own (next answer)) :
      Chain basic own (step >>= next)

namespace Chain

variable {step other : EStateM ε σ α}

theorem map (hstep : Chain basic own step) (f : α → β) :
    Chain basic own (do return f (← step)) :=
  hstep.bind fun answer => .pure (f answer)

theorem ite {condition : Prop} [Decidable condition] (hstep : Chain basic own step)
    (hother : Chain basic own other) :
    Chain basic own (if condition then step else other) := by
  by_cases h : condition
  · rwa [if_pos h]
  · rwa [if_neg h]

/-- What is put together from safe steps is safe. -/
theorem safe {kept : σ → Prop} {fair : ε → Prop} (h : Chain basic own step)
    (hbasic : ∀ {α : Type} {step : EStateM ε σ α}, basic α step →
      Safe kept fair step fun _ => True)
    (hown : ∀ cause, own cause → fair cause) : Safe kept fair step fun _ => True := by
  induction h with
  | basic h => exact hbasic h
  | pure answer => exact .pure trivial
  | refuse h => exact .refuse (hown _ h)
  | bind _ _ hstep hnext => exact hstep.bind fun answer _ => hnext answer

end Chain

end Step

open Step (Chain)

/-- A cause that lies in the bytes. -/
def CodecError.Malformed (cause : CodecError) : Prop := cause.kind = .malformed

/-! ### Numbers of variable size -/

namespace Varint

/-- The one way to look at a byte. -/
inductive Part : ∀ α : Type, ByteReader α → Prop
  | nextByte : Part _ nextByte

/-- A step that looks at one byte after the other. -/
abbrev Body {α : Type} (step : ByteReader α) : Prop := Chain Part CodecError.Malformed step

theorem body_getGroups (limit left : Nat) : Body (getGroups limit left) := by
  induction left with
  | zero => exact .refuse rfl
  | succ left ih => exact (Chain.basic .nextByte).bind fun byte => .ite (.pure _) (ih.map _)

theorem body_getUnsigned (limit bound : Nat) : Body (getUnsigned limit bound) :=
  (body_getGroups limit limit).bind fun _ => .ite (.pure _) (.refuse rfl)

theorem body_getSigned (limit bound : Nat) : Body (getSigned limit bound) := by
  have hfolded : Body (getFolded limit) :=
    (Chain.basic .nextByte).bind fun _ => .ite (.pure _) ((body_getGroups _ _).map _)
  exact hfolded.bind fun _ => .ite (.pure _) (.refuse rfl)

theorem body_getU32 : Body getU32 := (body_getUnsigned _ _).map _

theorem body_getU64 : Body getU64 := (body_getUnsigned _ _).map _

theorem body_getI32 : Body getI32 := (body_getSigned _ _).map _

theorem body_getI64 : Body getI64 := (body_getSigned _ _).map _

end Varint

/-- A text is refused as an identifier for what it is. -/
theorem Identifier.malformed_parse {text : String} {cause : CodecError}
    (h : parse text = .error cause) : cause.Malformed := by
  unfold parse at h
  cases hsplit : splitColon text.toList with
  | none =>
      simp only [hsplit] at h
      cases h
      rfl
  | some parts =>
      simp only [hsplit] at h
      unfold make at h
      by_cases hvalid : isNamespace (String.ofList parts.1) = true ∧
          isPath (String.ofList parts.2) = true
      · by_cases hfits : written (String.ofList parts.1) (String.ofList parts.2)
            ≤ maxIdentifierBytes
        · simp only [dif_pos hvalid, dif_pos hfits] at h
          cases h
        · simp only [dif_pos hvalid, dif_neg hfits] at h
          cases h
          rfl
      · simp only [dif_neg hvalid] at h
        cases h
        rfl

/-! ### Bodies of reads -/

namespace Reader

/-- The ways to look at the bytes of a decoder. -/
inductive Part : ∀ α : Type, Reader α → Prop
  | align : Part _ align
  | pullBit : Part _ pullBit
  | take (count : Nat) : Part _ (take count)
  | onBytes {α : Type} {step : ByteReader α} (h : Varint.Body step) : Part _ (onBytes step)

/-- A read that looks at the bytes only. -/
abbrev Body {α : Type} (read : Reader α) : Prop := Chain Part CodecError.Malformed read

theorem body_pullBits (width : Nat) : ∀ value, Body (pullBits value width) := by
  induction width with
  | zero => exact fun value => .pure value
  | succ width ih => exact fun value => (Chain.basic .pullBit).bind fun bit => ih _

theorem body_counted (limit : Nat) {tooLong : Nat → Nat → CodecError}
    (h : ∀ length, (tooLong length limit).Malformed) : Body (counted limit tooLong) :=
  (Chain.basic .align).bind fun _ => (Chain.basic (.onBytes Varint.body_getU32)).bind fun _ =>
    .ite ((Chain.refuse (h _)).bind fun _ => .basic (.take _)) (.basic (.take _))

theorem body_text (limit : Nat) : Body (text limit) := by
  have hdata : Body (counted limit .stringTooLong) := body_counted limit fun _ => rfl
  refine hdata.bind fun data => ?_
  cases Utf8.decode data with
  | ok content => exact .pure content
  | error fault => exact .refuse rfl

/-! ### The check in front -/

/-- A read that compares the kind `op` with the log before it looks at the bytes. -/
def Guarded {α : Type} (op : Op) (read : Reader α) : Prop :=
  ∃ body : Reader α, Body body ∧ read = (do expect op; body)

theorem Guarded.of_body {α : Type} {body : Reader α} (op : Op) (h : Body body) :
    Guarded op (do expect op; body) :=
  ⟨body, h, rfl⟩

theorem Guarded.bind {α β : Type} {op : Op} {read : Reader α} {next : α → Reader β}
    (h : Guarded op read) (hnext : ∀ value, Body (next value)) :
    Guarded op (read >>= next) := by
  obtain ⟨body, hbody, rfl⟩ := h
  exact ⟨body >>= next, hbody.bind hnext, by rw [bind_assoc]⟩

theorem Guarded.map {α β : Type} {op : Op} {read : Reader α} (h : Guarded op read) (f : α → β) :
    Guarded op (do return f (← read)) :=
  h.bind fun value => .pure (f value)

theorem guarded_bool : Guarded .bool bool := .of_body _ (.basic .pullBit)

theorem guarded_bits {width : Nat} (h : isBitCount width = true) :
    Guarded (.bits width) (bits width) := by
  unfold bits
  simp only [h, Bool.not_true, Bool.false_eq_true, if_false]
  exact .of_body _ (body_pullBits width 0)

theorem guarded_enum {count : Nat} (h : count ≠ 0) : Guarded (.enum count) (enum count) := by
  unfold enum
  simp only [enumBitWidth, if_neg h]
  exact .of_body _ ((body_pullBits _ 0).bind fun _ => .ite (.pure _) (.refuse rfl))

theorem guarded_word (op : Op) (count : Nat) : Guarded op (word op count) :=
  .of_body op ((Chain.basic .align).bind fun _ => (Chain.basic (.take count)).map _)

theorem guarded_varint {α : Type} {step : ByteReader α} (op : Op) (h : Varint.Body step) :
    Guarded op (varint op step) :=
  .of_body op ((Chain.basic .align).bind fun _ => .basic (.onBytes h))

theorem guarded_byteBlock (limit : Nat) : Guarded .byteBlock (byteBlock limit) :=
  .of_body _ (body_counted limit fun _ => rfl)

theorem guarded_str (limit : Nat) : Guarded .str (str limit) := .of_body _ (body_text limit)

theorem guarded_identifier : Guarded .identifier identifier := by
  refine .of_body _ ((body_text _).bind fun content => ?_)
  cases hparse : Identifier.parse content with
  | ok id => exact .pure id
  | error cause => exact .refuse (Identifier.malformed_parse hparse)

theorem guarded_identifier? : Guarded .identifier identifier? := .of_body _ ((body_text _).map _)

end Reader

/-- The kind of field a read asks for; none if no field could have its parameter. -/
def FieldRead.op? : FieldRead → Option Op
  | .bool => some .bool
  | .bits width => if isBitCount width then some (.bits width) else none
  | .enum count => if count = 0 then none else some (.enum count)
  | .u8 => some .u8
  | .u16 => some .u16
  | .u32 => some .u32
  | .u64 => some .u64
  | .f32 => some .f32
  | .f64 => some .f64
  | .varI32 => some .varI32
  | .varI64 => some .varI64
  | .varU32 => some .varU32
  | .varU64 => some .varU64
  | .block _ => some .byteBlock
  | .str _ => some .str
  | .ident | .identSafe => some .identifier

namespace Reader

/-- **A read compares its kind with the log before it looks at the bytes.** -/
theorem guarded_field {read : FieldRead} {op : Op} (h : read.op? = some op) :
    Guarded op (field read) := by
  cases read with
  | bits width =>
      have hwidth : isBitCount width = true := by
        by_contra hwidth
        simp [FieldRead.op?, hwidth] at h
      simp only [FieldRead.op?, if_pos hwidth] at h
      cases h
      exact (guarded_bits hwidth).map _
  | enum count =>
      have hcount : count ≠ 0 := by
        rintro rfl
        simp [FieldRead.op?] at h
      simp only [FieldRead.op?, if_neg hcount] at h
      cases h
      exact (guarded_enum hcount).map _
  | bool => cases h; exact guarded_bool.map _
  | u8 | u16 | u32 | u64 | f32 | f64 => cases h; exact ((guarded_word _ _).map _).map _
  | varI32 => cases h; exact (guarded_varint _ Varint.body_getI32).map _
  | varI64 => cases h; exact (guarded_varint _ Varint.body_getI64).map _
  | varU32 => cases h; exact (guarded_varint _ Varint.body_getU32).map _
  | varU64 => cases h; exact (guarded_varint _ Varint.body_getU64).map _
  | block limit => cases h; exact (guarded_byteBlock limit).map _
  | str limit => cases h; exact (guarded_str limit).map _
  | ident => cases h; exact guarded_identifier.map _
  | identSafe => cases h; exact guarded_identifier?.map _

/-- A read with a parameter that no field could have is refused before it looks at anything. -/
theorem field_misused {read : FieldRead} (h : read.op? = none) :
    ∃ cause : CodecError, cause.kind = .misuse ∧ ∀ dec, field read dec = .error cause dec := by
  cases read with
  | bits width =>
      have hwidth : isBitCount width = false := by
        by_contra hwidth
        simp [FieldRead.op?, hwidth] at h
      refine ⟨.invalidBitCount width, rfl, fun dec => ?_⟩
      simp only [field, bits, hwidth]
      rfl
  | enum count =>
      have hcount : count = 0 := by
        by_contra hcount
        simp [FieldRead.op?, hcount] at h
      subst hcount
      exact ⟨.emptyEnum, rfl, fun dec => rfl⟩
  | _ => cases h

end Reader

end PathWire
