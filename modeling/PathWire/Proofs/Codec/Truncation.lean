/-
A truncated message is noticed.

Nothing on the wire marks the end of a message, and nothing a read does depends on the bytes behind
those it takes.  So a read that goes well on the whole message goes just as well on a shorter one
that still holds its bytes, and on one that does not it misses a byte somewhere: in a run of bits,
in a number, in a length or in a body.  Wherever it is, the read then reports the end of the
buffer, and it never gets as far as another complaint, because the bytes it has seen until then are
those of the whole message.

This is a property of steps that survives composition, so it is shown of the parts that reads are
made of (`Proofs/Codec/Parts.lean`) and carried over to all fields and to sequences of them.  A
sequence that got through a truncated message would have the bytes that were cut off left over at
the end of the whole one, where none are left.
-/
import PathWire.Proofs.Codec.Parts
import PathWire.Proofs.Codec.RoundTrip

namespace PathWire

/-- The buffer ended before the field did. -/
def CodecError.IsEof (cause : CodecError) : Prop :=
  ∃ needed remaining, cause = .unexpectedEof needed remaining

/-! ### Steps that do without what follows -/

namespace Step

variable {σ α β : Type} {extend : σ → Bytes → σ}

/-- A step that went well with more bytes behind its state does the same without them, or reports
the end of the buffer. -/
def Frugal (extend : σ → Bytes → σ) (step : EStateM CodecError σ α) : Prop :=
  ∀ ⦃state : σ⦄ ⦃more : Bytes⦄ ⦃answer : α⦄ ⦃after : σ⦄,
    step (extend state more) = .ok answer after →
      (∃ left, step state = .ok answer left ∧ after = extend left more) ∨
        ∃ cause left, step state = .error cause left ∧ cause.IsEof

theorem Frugal.bind {step : EStateM CodecError σ α} {next : α → EStateM CodecError σ β}
    (hstep : Frugal extend step) (hnext : ∀ answer, Frugal extend (next answer)) :
    Frugal extend (step >>= next) := by
  intro state more answer after h
  obtain ⟨first, between, hfirst, hrest⟩ := of_bind_ok h
  rcases hstep hfirst with ⟨left, hshort, rfl⟩ | ⟨cause, left, hshort, heof⟩
  · rw [bind_ok hshort]
    exact hnext first hrest
  · exact .inr ⟨cause, left, bind_error hshort, heof⟩

/-- What is put together from such steps is one. -/
theorem Chain.frugal {basic : ∀ α : Type, EStateM CodecError σ α → Prop} {own : CodecError → Prop}
    (hbasic : ∀ {α : Type} {step : EStateM CodecError σ α}, basic α step → Frugal extend step)
    {step : EStateM CodecError σ α} (h : Chain basic own step) : Frugal extend step := by
  induction h with
  | basic h => exact hbasic h
  | pure answer =>
      intro state more found after h
      cases h
      exact .inl ⟨state, rfl, rfl⟩
  | refuse _ =>
      intro state more found after h
      cases h
  | bind _ _ hstep hnext => exact hstep.bind hnext

end Step

open Step (Frugal)

/-! ### The parts of a read -/

/-- The same decoder with more bytes behind those it has. -/
def Decoder.extend (dec : Decoder) (more : Bytes) : Decoder :=
  { dec with rest := dec.rest ++ more }

namespace Reader

open Decoder (extend)

theorem frugal_expect (op : Op) : Frugal extend (expect op) := by
  intro dec more answer after h
  obtain ⟨rest, rolling, check⟩ := dec
  cases check with
  | none =>
      cases h
      exact .inl ⟨_, rfl, rfl⟩
  | some check =>
      simp only [expect, bind, EStateM.bind, get, getThe, MonadStateOf.get, EStateM.get,
        extend] at h ⊢
      cases hentry : check.log[check.cursor]? with
      | none =>
          simp only [hentry] at h
          cases h
      | some written =>
          simp only [hentry] at h ⊢
          by_cases hsame : written = op
          · simp only [if_pos hsame] at h ⊢
            cases h
            exact .inl ⟨_, rfl, rfl⟩
          · simp only [if_neg hsame] at h
            cases h

theorem frugal_pullBit : Frugal extend pullBit := by
  intro dec more bit after h
  obtain ⟨rest, rolling, check⟩ := dec
  cases rolling with
  | cons first others =>
      cases h
      exact .inl ⟨_, rfl, rfl⟩
  | nil =>
      cases rest with
      | nil => exact .inr ⟨_, _, rfl, 1, 0, rfl⟩
      | cons byte others =>
          cases h
          exact .inl ⟨_, rfl, rfl⟩

theorem frugal_take (count : Nat) : Frugal extend (take count) := by
  intro dec more data after h
  by_cases hroom : count ≤ dec.remaining
  · have hlong : count ≤ (dec.extend more).remaining := by
      simp only [Decoder.remaining, extend, List.length_append] at hroom ⊢
      omega
    rw [take, Step.bind_ok (ensure_ok hlong)] at h
    cases h
    refine .inl ⟨{ dec with rest := dec.rest.drop count }, ?_, ?_⟩
    · rw [take, Step.bind_ok (ensure_ok hroom)]
      show EStateM.Result.ok (dec.rest.take count) _ = _
      simp only [extend, List.take_append_of_le_length hroom]
    · simp only [extend, List.drop_append_of_le_length hroom]
  · have hshort := ensure_short (Nat.lt_of_not_le hroom)
    exact .inr ⟨_, _, Step.bind_error hshort, count, dec.remaining, rfl⟩

theorem frugal_nextByte : Frugal (fun bytes more => bytes ++ more) Varint.nextByte := by
  intro bytes more byte after h
  cases bytes with
  | nil => exact .inr ⟨.unexpectedEof 1 0, [], rfl, 1, 0, rfl⟩
  | cons first rest =>
      cases h
      exact .inl ⟨rest, rfl, rfl⟩

theorem frugal_onBytes {α : Type} {step : ByteReader α}
    (hstep : Frugal (fun bytes more => bytes ++ more) step) : Frugal extend (onBytes step) := by
  intro dec more answer after h
  have hwhole : (extend dec more).rest = dec.rest ++ more := rfl
  cases hlong : step (dec.rest ++ more) with
  | error cause rest =>
      simp only [onBytes, hwhole, hlong] at h
      cases h
  | ok found rest =>
      simp only [onBytes, hwhole, hlong] at h
      cases h
      rcases hstep hlong with ⟨left, hshort, rfl⟩ | ⟨cause, left, hshort, heof⟩
      · exact .inl ⟨{ dec with rest := left }, by simp only [onBytes, hshort], rfl⟩
      · exact .inr ⟨cause, { dec with rest := left }, by simp only [onBytes, hshort], heof⟩

theorem Part.frugal {α : Type} {step : Reader α} (h : Part α step) : Frugal extend step := by
  cases h with
  | align =>
      intro dec more answer after h
      cases h
      exact .inl ⟨_, rfl, rfl⟩
  | pullBit => exact frugal_pullBit
  | take count => exact frugal_take count
  | onBytes h =>
      refine frugal_onBytes (h.frugal fun hpart => ?_)
      cases hpart
      exact frugal_nextByte

/-- **Every read does without the bytes behind it.** -/
theorem frugal_field (read : FieldRead) : Frugal extend (field read) := by
  cases hop : read.op? with
  | some op =>
      obtain ⟨body, hbody, hread⟩ := guarded_field hop
      rw [hread]
      exact (frugal_expect op).bind fun _ => hbody.frugal Part.frugal
  | none =>
      obtain ⟨cause, -, hread⟩ := field_misused hop
      intro dec more value after h
      rw [hread] at h
      cases h

/-! ### Sequences of reads -/

/-- Reads that come to the end of the buffer: one of them reports it, all of them together do, and
those before that one give the first of `values`. -/
def RunsOut (reads : List FieldRead) (values : List FieldValue) (dec : Decoder) : Prop :=
  ∃ (earlier : List FieldRead) (read : FieldRead) (later : List FieldRead) (between : Decoder)
    (needed remaining : Nat) (after : Decoder),
      reads = earlier ++ read :: later ∧
      fields earlier dec = .ok (values.take earlier.length) between ∧
      field read between = .error (.unexpectedEof needed remaining) after ∧
      fields reads dec = .error (.unexpectedEof needed remaining) after

/-- Reads that went well with more bytes behind do the same without them, or run out. -/
theorem fields_cut {reads : List FieldRead} : ∀ {dec : Decoder} {more : Bytes}
    {values : List FieldValue} {after : Decoder},
    fields reads (dec.extend more) = .ok values after →
      (∃ left, fields reads dec = .ok values left ∧ after = left.extend more) ∨
        RunsOut reads values dec := by
  induction reads with
  | nil =>
      intro dec more values after h
      cases h
      exact .inl ⟨dec, rfl, rfl⟩
  | cons read rest ih =>
      intro dec more values after h
      obtain ⟨value, between, hread, hrest⟩ := Step.of_bind_ok h
      obtain ⟨others, final, hothers, hanswer⟩ := Step.of_bind_ok hrest
      cases hanswer
      rcases frugal_field read hread with ⟨left, hshort, rfl⟩ | ⟨cause, left, hshort, heof⟩
      · rcases ih hothers with ⟨last, hlast, rfl⟩ | hout
        · exact .inl ⟨last, by rw [fields, Step.bind_ok hshort, Step.bind_ok hlast]; rfl, rfl⟩
        · obtain ⟨earlier, next, later, stop, needed, remaining, last, rfl, hearlier, hnext,
            hall⟩ := hout
          refine .inr ⟨read :: earlier, next, later, stop, needed, remaining, last, rfl, ?_, hnext,
            ?_⟩
          · rw [fields, Step.bind_ok hshort, Step.bind_ok hearlier]
            rfl
          · rw [fields, Step.bind_ok hshort, Step.bind_error hall]
      · obtain ⟨needed, remaining, rfl⟩ := heof
        exact .inr ⟨[], read, rest, dec, needed, remaining, left, rfl, rfl, hshort, by
          rw [fields, Step.bind_error hshort]⟩

end Reader

/-- **A truncated message is noticed.**  Whatever was written, a decoder on less than all of the
bytes that performs the matching reads gives the right values up to some read, and that read
reports the end of the buffer. -/
theorem truncation_detected {writes : List FieldWrite} {reads : List FieldRead}
    {values : List FieldValue} {cut : Bytes}
    (hmatch : MatchAll (Encoder.empty.accepted writes) reads values)
    (hcut : cut <+: (Encoder.empty.writeAll writes).bytes)
    (hstrict : cut ≠ (Encoder.empty.writeAll writes).bytes) :
    Reader.RunsOut reads values (.ofBytes cut) := by
  obtain ⟨more, hmore⟩ := hcut
  have hmirrors := mirrors_writeAll writes Encoder.empty hmatch
  obtain ⟨rolling, hahead⟩ := Encoder.ahead_bytes (hmirrors Encoder.short_empty).1
  have hwhole : Reader.fields reads ((Decoder.ofBytes cut).extend more)
      = .ok values ⟨[], rolling, none⟩ := by
    show Reader.fields reads (.ofBytes (cut ++ more)) = _
    rw [hmore]
    exact hmirrors.from_start hahead
  rw [← hmore] at hstrict
  rcases Reader.fields_cut hwhole with ⟨left, -, hleft⟩ | hout
  · -- The decoder at the end of the whole message has nothing left, not even what was cut off.
    have hnone : left.rest ++ more = [] := (congrArg Decoder.rest hleft).symm
    obtain ⟨-, rfl⟩ := List.append_eq_nil_iff.mp hnone
    simp at hstrict
  · exact hout

/-- Three bits and a text of three bytes, cut inside the text. -/
theorem cut_text_detected :
    Reader.RunsOut [.bits 3, .str 3] [.bits 5, .str "abc"] (.ofBytes [160, 3, 97]) := by
  have haccepted : Encoder.empty.accepted [.bits 5 3, .str "abc" 3]
      = [.bits 5 3, .str "abc" 3] := by
    rfl
  have hbytes : (Encoder.empty.writeAll [.bits 5 3, .str "abc" 3]).bytes
      = [160, 3, 97, 98, 99] := by
    decide +kernel
  refine @truncation_detected [.bits 5 3, .str "abc" 3] _ _ _ ?_ ?_ ?_
  · rw [haccepted]
    exact .cons (.bits 5 3) (.cons (.str "abc" 3 3 (by decide)) .nil)
  · rw [hbytes]
    exact ⟨[98, 99], rfl⟩
  · rw [hbytes]
    decide

end PathWire
