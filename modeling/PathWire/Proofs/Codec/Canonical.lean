/-
What was read, written again.

Reading accepts more than writing produces: a number may take more bytes than it needs, and the
bits passed over in front of a whole byte may be anything.  Whatever was read, though, the
matching writes accept it, and what they write is no longer than what was read, because both
sides are looked at as strings of bits: each read takes some bits off the front, its write adds
some at the end, never more than were taken and always as many up to whole bytes, so both sides
stay at the same place inside a byte.  The strings as a whole are the same exactly if no read in
between took more than its write gives back, and that is what `Tidy` says of the bytes alone.
-/
import PathWire.Proofs.Codec.Taken

namespace PathWire

/-! ### Bits written for bits taken off -/

/-- A read took off bits that are written as a piece again. -/
structure Decoder.Yields (dec after : Decoder) (tidy : Prop) (piece : Layout.Piece) : Prop where
  plain : after.Plain
  bits : ∃ taken, dec.unread = taken ++ after.unread ∧
    Rewrites (piece.bitsBehind dec.rolling.length) taken tidy

namespace Decoder.Yields

variable {dec after : Decoder}

theorem run {bits : List Bool} (hplain : after.Plain) (h : dec.unread = bits ++ after.unread) :
    dec.Yields after True (.run bits) :=
  ⟨hplain, bits, h, .refl bits⟩

theorem whole {data : Bytes} {short : Prop} (h : Reader.Took dec after data short) :
    dec.Yields after (dec.Padded ∧ short) (.whole data) := by
  obtain ⟨taken, hrest, hleast, hshort⟩ := h.bytes
  refine ⟨h.plain, dec.rolling ++ Bytes.bits taken, ?_, ?_⟩
  · simp [unread, hrest, h.rolling]
  · exact (Rewrites.zeros dec.rolling).append ((Rewrites.of_least hleast).congr hshort)

end Decoder.Yields

/-! ### One read and the write that matches it -/

namespace FieldRead

/-- The write of the same kind and limit as a read, of the value the read gave.  There is none
for an identifier that was not one. -/
def back : FieldRead → FieldValue → Option FieldWrite
  | .bool, .bool value => some (.bool value)
  | .bits width, .bits value => some (.bits value width)
  | .enum count, .enum ordinal => some (.enum ordinal count)
  | .u8, .u8 value => some (.u8 value)
  | .u16, .u16 value => some (.u16 value)
  | .u32, .u32 value => some (.u32 value)
  | .u64, .u64 value => some (.u64 value)
  | .f32, .f32 pattern => some (.f32 pattern)
  | .f64, .f64 pattern => some (.f64 pattern)
  | .varI32, .varI32 value => some (.varI32 value)
  | .varI64, .varI64 value => some (.varI64 value)
  | .varU32, .varU32 value => some (.varU32 value)
  | .varU64, .varU64 value => some (.varU64 value)
  | .block _, .block data => some (.block data)
  | .str limit, .str text => some (.str text limit)
  | .ident, .ident id => some (.ident id)
  | .identSafe, .identSafe (some id) => some (.ident id)
  | _, _ => none

/-- A read finds its field as a writer leaves it: the bits it passes over are zero, and a number
or length of variable size that it starts with is in its shortest form. -/
def Tidy (dec : Decoder) : FieldRead → Prop
  | .bool | .bits _ | .enum _ => True
  | .u8 | .u16 | .u32 | .u64 | .f32 | .f64 => dec.Padded
  | .varI32 => dec.Padded ∧ Varint.Shortest Varint.getI32 dec.rest
  | .varI64 => dec.Padded ∧ Varint.Shortest Varint.getI64 dec.rest
  | .varU32 => dec.Padded ∧ Varint.Shortest Varint.getU32 dec.rest
  | .varU64 => dec.Padded ∧ Varint.Shortest Varint.getU64 dec.rest
  | .block _ | .str _ | .ident | .identSafe =>
    dec.Padded ∧ Varint.Shortest Varint.getU32 dec.rest

/-- The value of a successful read can be written, is read as that value again, and takes off at
least the bits that are then written. -/
def WritesBack (read : FieldRead) (value : FieldValue) (dec after : Decoder) : Prop :=
  ∃ write, read.back value = some write ∧ Layout.writable write = true ∧
    write.Matches read value ∧ dec.Yields after (read.Tidy dec) (Layout.piece write)

end FieldRead

namespace Reader

theorem bool_back {value : Bool} {dec after : Decoder} (hplain : dec.Plain)
    (h : bool dec = .ok value after) : FieldRead.bool.WritesBack (.bool value) dec after := by
  obtain ⟨hafter, hunread⟩ := pullBit_ok hplain (expect_ok hplain h)
  exact ⟨_, rfl, rfl, .bool value, .run hafter hunread⟩

theorem bits_back {width value : Nat} {dec after : Decoder} (hplain : dec.Plain)
    (h : bits width dec = .ok value after) :
    (FieldRead.bits width).WritesBack (.bits value) dec after := by
  unfold bits at h
  by_cases hwidth : isBitCount width = true
  · simp only [hwidth, Bool.not_true, Bool.false_eq_true, if_false] at h
    obtain ⟨hafter, hfits, hunread⟩ := pullNumber_ok hplain (expect_ok hplain h)
    have hbound : value < Nat.pow 2 width := hfits
    rw [Layout.ofNat_eq_binary] at hunread
    refine ⟨_, rfl, ?_, .bits value width, .run hafter hunread⟩
    show (isBitCount width && decide (value < Nat.pow 2 width)) = true
    rw [hwidth, decide_eq_true hbound, Bool.and_self]
  · simp only [hwidth, Bool.not_false, if_true] at h
    cases h

theorem enum_back {count ordinal : Nat} {dec after : Decoder} (hplain : dec.Plain)
    (h : enum count dec = .ok ordinal after) :
    (FieldRead.enum count).WritesBack (.enum ordinal) dec after := by
  unfold enum at h
  cases hwidth : enumBitWidth count with
  | error cause =>
      simp only [hwidth] at h
      cases h
  | ok width =>
      obtain ⟨hcount, hlength⟩ := enumBitWidth_ok hwidth
      simp only [hwidth, pure_bind] at h
      obtain ⟨number, between, hnumber, hcheck⟩ := Step.of_bind_ok (expect_ok hplain h)
      obtain ⟨hafter, -, hunread⟩ := pullNumber_ok hplain hnumber
      rw [Layout.ofNat_eq_binary, hlength, Layout.bitLength_eq_clog hcount] at hunread
      by_cases hordinal : number < count
      · rw [if_pos hordinal] at hcheck
        cases hcheck
        exact ⟨_, rfl, decide_eq_true hordinal, .enum ordinal count, .run hafter hunread⟩
      · rw [if_neg hordinal] at hcheck
        cases hcheck

theorem word_yields {op : Op} {count value : Nat} {dec after : Decoder} (hplain : dec.Plain)
    (h : word op count dec = .ok value after) :
    value < 256 ^ count ∧
      dec.Yields after dec.Padded (.whole (Layout.bigEndian count value)) := by
  obtain ⟨hsize, htook⟩ := word_ok hplain h
  rw [Layout.bigEndian_eq] at htook
  have hyields := Decoder.Yields.whole htook
  rw [and_true] at hyields
  exact ⟨hsize, hyields⟩

/-- The bytes of a machine word that holds a field of kind `op`. -/
theorem machineWord_yields {α : Type} {count : Nat} (width : Word α (· < 256 ^ count)) {op : Op}
    {value : α} {dec after : Decoder} (hplain : dec.Plain)
    (h : (do return width.make (← word op count) : Reader α) dec = .ok value after) :
    dec.Yields after dec.Padded (.whole (Layout.bigEndian count (width.number value))) := by
  obtain ⟨number, _, hword, hend⟩ := Step.of_bind_ok h
  cases hend
  obtain ⟨hsize, hyields⟩ := word_yields hplain hword
  rwa [width.number_make hsize]

theorem byteBlock_back {limit : Nat} {data : Bytes} {dec after : Decoder} (hplain : dec.Plain)
    (h : byteBlock limit dec = .ok data after) :
    (FieldRead.block limit).WritesBack (.block data) dec after := by
  obtain ⟨hlimit, hfield, htook⟩ := counted_ok hplain (expect_ok hplain h)
  rw [Layout.counted_eq] at htook
  exact ⟨_, rfl, decide_eq_true hfield, .block data limit hlimit, .whole htook⟩

theorem str_back {limit : Nat} {content : String} {dec after : Decoder} (hplain : dec.Plain)
    (h : str limit dec = .ok content after) :
    (FieldRead.str limit).WritesBack (.str content) dec after := by
  obtain ⟨hlimit, hfield, htook⟩ := text_ok hplain (expect_ok hplain h)
  rw [Layout.counted_eq] at htook
  refine ⟨_, rfl, ?_, .str content limit limit ?_, .whole htook⟩
  · rw [Layout.writable, decide_eq_true hlimit, decide_eq_true hfield, Bool.and_self]
  · rwa [Bytes.length_ofString]

/-- The text of an identifier is the one it is written as. -/
theorem identifier_yields {content : String} {id : Identifier} {dec after : Decoder}
    (hplain : dec.Plain) (hparse : Identifier.parse content = .ok id)
    (h : (do expect .identifier; text maxIdentifierBytes : Reader String) dec = .ok content after) :
    dec.Yields after (dec.Padded ∧ Varint.Shortest Varint.getU32 dec.rest)
      (Layout.piece (.ident id)) := by
  obtain ⟨-, -, htook⟩ := text_ok hplain (expect_ok hplain h)
  rw [Layout.counted_eq, ← Identifier.display_parse hparse] at htook
  exact .whole htook

theorem identifier_back {id : Identifier} {dec after : Decoder} (hplain : dec.Plain)
    (h : identifier dec = .ok id after) : FieldRead.ident.WritesBack (.ident id) dec after := by
  unfold identifier at h
  rw [← bind_assoc] at h
  obtain ⟨content, between, hcontent, hrest⟩ := Step.of_bind_ok h
  cases hparse : Identifier.parse content with
  | error cause =>
      simp only [hparse] at hrest
      cases hrest
  | ok found =>
      simp only [hparse] at hrest
      cases hrest
      exact ⟨_, rfl, rfl, .ident id, identifier_yields hplain hparse hcontent⟩

theorem identifier?_back {id : Identifier} {dec after : Decoder} (hplain : dec.Plain)
    (h : identifier? dec = .ok (some id) after) :
    FieldRead.identSafe.WritesBack (.identSafe (some id)) dec after := by
  unfold identifier? at h
  rw [← bind_assoc] at h
  obtain ⟨content, between, hcontent, hrest⟩ := Step.of_bind_ok h
  cases hparse : Identifier.parse content with
  | error cause =>
      simp only [hparse, Except.toOption] at hrest
      cases hrest
  | ok found =>
      simp only [hparse, Except.toOption] at hrest
      cases hrest
      exact ⟨_, rfl, rfl, .identSafe id, identifier_yields hplain hparse hcontent⟩

/-- A successful read writes back, unless it gave no identifier. -/
theorem field_back {read : FieldRead} {value : FieldValue} {dec after : Decoder}
    (hplain : dec.Plain) (h : field read dec = .ok value after) (hvalue : value ≠ .identSafe none) :
    read.WritesBack value dec after := by
  cases read with
  | bool =>
      obtain ⟨flag, _, hread, hend⟩ := Step.of_bind_ok h
      cases hend
      exact bool_back hplain hread
  | bits width =>
      obtain ⟨number, _, hread, hend⟩ := Step.of_bind_ok h
      cases hend
      exact bits_back hplain hread
  | enum count =>
      obtain ⟨ordinal, _, hread, hend⟩ := Step.of_bind_ok h
      cases hend
      exact enum_back hplain hread
  | u8 =>
      obtain ⟨number, _, hread, hend⟩ := Step.of_bind_ok h
      cases hend
      exact ⟨_, rfl, rfl, .u8 number, machineWord_yields .u8 hplain hread⟩
  | u16 =>
      obtain ⟨number, _, hread, hend⟩ := Step.of_bind_ok h
      cases hend
      exact ⟨_, rfl, rfl, .u16 number, machineWord_yields .u16 hplain hread⟩
  | u32 =>
      obtain ⟨number, _, hread, hend⟩ := Step.of_bind_ok h
      cases hend
      exact ⟨_, rfl, rfl, .u32 number, machineWord_yields .u32 hplain hread⟩
  | u64 =>
      obtain ⟨number, _, hread, hend⟩ := Step.of_bind_ok h
      cases hend
      exact ⟨_, rfl, rfl, .u64 number, machineWord_yields .u64 hplain hread⟩
  | f32 =>
      obtain ⟨pattern, _, hread, hend⟩ := Step.of_bind_ok h
      cases hend
      exact ⟨_, rfl, rfl, .f32 pattern, machineWord_yields .u32 hplain hread⟩
  | f64 =>
      obtain ⟨pattern, _, hread, hend⟩ := Step.of_bind_ok h
      cases hend
      exact ⟨_, rfl, rfl, .f64 pattern, machineWord_yields .u64 hplain hread⟩
  | varI32 =>
      obtain ⟨number, _, hread, hend⟩ := Step.of_bind_ok h
      cases hend
      have htook := varint_ok Varint.canonical_i32 hplain hread
      rw [Varint.putI32, Layout.putSigned_eq] at htook
      exact ⟨_, rfl, rfl, .varI32 number, .whole htook⟩
  | varI64 =>
      obtain ⟨number, _, hread, hend⟩ := Step.of_bind_ok h
      cases hend
      have htook := varint_ok Varint.canonical_i64 hplain hread
      rw [Varint.putI64, Layout.putSigned_eq] at htook
      exact ⟨_, rfl, rfl, .varI64 number, .whole htook⟩
  | varU32 =>
      obtain ⟨number, _, hread, hend⟩ := Step.of_bind_ok h
      cases hend
      have htook := varint_ok Varint.canonical_u32 hplain hread
      rw [Varint.putU32, Layout.putUnsigned_eq] at htook
      exact ⟨_, rfl, rfl, .varU32 number, .whole htook⟩
  | varU64 =>
      obtain ⟨number, _, hread, hend⟩ := Step.of_bind_ok h
      cases hend
      have htook := varint_ok Varint.canonical_u64 hplain hread
      rw [Varint.putU64, Layout.putUnsigned_eq] at htook
      exact ⟨_, rfl, rfl, .varU64 number, .whole htook⟩
  | block limit =>
      obtain ⟨data, _, hread, hend⟩ := Step.of_bind_ok h
      cases hend
      exact byteBlock_back hplain hread
  | str limit =>
      obtain ⟨content, _, hread, hend⟩ := Step.of_bind_ok h
      cases hend
      exact str_back hplain hread
  | ident =>
      obtain ⟨id, _, hread, hend⟩ := Step.of_bind_ok h
      cases hend
      exact identifier_back hplain hread
  | identSafe =>
      obtain ⟨id?, _, hread, hend⟩ := Step.of_bind_ok h
      cases hend
      cases id? with
      | none => exact absurd rfl hvalue
      | some id => exact identifier?_back hplain hread

end Reader

/-! ### Sequences -/

namespace FieldRead

/-- The writes that match a sequence of reads, of the values these gave. -/
def backAll : List FieldRead → List FieldValue → Option (List FieldWrite)
  | [], [] => some []
  | read :: reads, value :: values => do
    let write ← read.back value
    return write :: (← backAll reads values)
  | _, _ => none

/-- Every one of a sequence of reads finds its field as a writer leaves it, and the bits behind
the last one are zero. -/
def TidyAll : List FieldRead → Decoder → Prop
  | [], dec => dec.Padded
  | read :: reads, dec => read.Tidy dec ∧
    ∀ value after, Reader.field read dec = .ok value after → TidyAll reads after

theorem tidyAll_cons {read : FieldRead} {value : FieldValue} {dec after : Decoder}
    (reads : List FieldRead) (h : Reader.field read dec = .ok value after) :
    TidyAll (read :: reads) dec ↔ read.Tidy dec ∧ TidyAll reads after := by
  rw [TidyAll, h]
  simp

end FieldRead

/-- An encoder and a decoder stand at the same place inside a byte. -/
def Encoder.Level (enc : Encoder) (dec : Decoder) : Prop :=
  (enc.rolling.length + dec.rolling.length) % 8 = 0

namespace Encoder

theorem Level.room {enc : Encoder} {dec : Decoder} (h : enc.Level dec) (hshort : enc.Short)
    (hplain : dec.Plain) : (8 - enc.rolling.length) % 8 = dec.rolling.length := by
  have hsum : (enc.rolling.length + dec.rolling.length) % 8 = 0 := h
  have henc : enc.rolling.length < 8 := hshort
  have hdec : dec.rolling.length < 8 := hplain.2
  omega

end Encoder

/-- Reading one field and writing it again keeps both sides level. -/
theorem Decoder.Yields.level {enc : Encoder} {dec after : Decoder} {tidy : Prop}
    {piece : Layout.Piece} (h : dec.Yields after tidy piece) (hshort : enc.Short)
    (hplain : dec.Plain) (hlevel : enc.Level dec) : (enc.put piece).Level after := by
  obtain ⟨taken, hunread, hrewrites⟩ := h.bits
  have hput := congrArg List.length (Encoder.bits_put hshort piece)
  rw [hlevel.room hshort hplain] at hput
  have htaken := congrArg List.length hunread
  have hmod := hrewrites.length_mod
  have hsum : (enc.rolling.length + dec.rolling.length) % 8 = 0 := hlevel
  simp only [Encoder.bits, Decoder.unread, List.length_append, Bytes.length_bits] at hput htaken
  show ((enc.put piece).rolling.length + after.rolling.length) % 8 = 0
  omega

/-- What is written for the values of a sequence of reads, and what these took off, bit by bit
from the place where both sides stand. -/
theorem fields_back (reads : List FieldRead) : ∀ {values : List FieldValue} {dec final : Decoder}
    {enc : Encoder}, dec.Plain → enc.Short → enc.Level dec →
    Reader.fields reads dec = .ok values final → FieldValue.identSafe none ∉ values →
      ∃ writes, FieldRead.backAll reads values = some writes ∧
        (∀ write ∈ writes, Layout.writable write = true) ∧ MatchAll writes reads values ∧
        ∃ consumed produced, dec.unread = consumed ++ Bytes.bits final.rest ∧
          Bytes.bits (enc.writeAll writes).bytes = enc.bits ++ produced ∧
          Rewrites produced consumed (FieldRead.TidyAll reads dec) := by
  induction reads with
  | nil =>
      intro values dec final enc hplain hshort hlevel h _
      cases h
      refine ⟨[], rfl, by simp, .nil, dec.rolling, enc.padding, rfl, Encoder.bits_bytes hshort, ?_⟩
      rw [Encoder.padding, hlevel.room hshort hplain]
      exact .zeros dec.rolling
  | cons read reads ih =>
      intro values dec final enc hplain hshort hlevel h hvalues
      obtain ⟨value, after, hfirst, hrest⟩ := Step.of_bind_ok h
      obtain ⟨others, _, hothers, hend⟩ := Step.of_bind_ok hrest
      cases hend
      have hvalue : value ≠ .identSafe none := fun hsame => hvalues (by simp [hsame])
      have hnone : FieldValue.identSafe none ∉ others := fun hmem => hvalues (by simp [hmem])
      obtain ⟨write, hback, hwritable, hmatch, hyields⟩ :=
        Reader.field_back hplain hfirst hvalue
      obtain ⟨op, hwrite⟩ := enc.write_writable hwritable
      have hput := (Encoder.onto_put (Encoder.short_record op hshort) (Layout.piece write)).1
      have hnext := hyields.level (Encoder.short_record op hshort) hplain hlevel
      obtain ⟨writes, hbacks, hwritables, hmatches, consumed, produced, hunread, hbytes, hsame⟩ :=
        ih hyields.plain hput hnext hothers hnone
      obtain ⟨taken, htaken, hfield⟩ := hyields.bits
      refine ⟨write :: writes, ?_, ?_, .cons hmatch hmatches, taken ++ consumed,
        (Layout.piece write).bitsBehind dec.rolling.length ++ produced, ?_, ?_, ?_⟩
      · simp [FieldRead.backAll, hback, hbacks]
      · intro one hone
        rcases List.mem_cons.mp hone with rfl | hlater
        · exact hwritable
        · exact hwritables one hlater
      · rw [htaken, hunread, List.append_assoc]
      · rw [Encoder.writeAll_cons_ok writes hwrite, hbytes,
          Encoder.bits_put (Encoder.short_record op hshort), ← List.append_assoc]
        congr 2
        rw [← hlevel.room hshort hplain]
        rfl
      · exact (hfield.append hsame).congr (FieldRead.tidyAll_cons reads hfirst)

theorem accepted_of_writable (writes : List FieldWrite)
    (h : ∀ write ∈ writes, Layout.writable write = true) (enc : Encoder) :
    enc.accepted writes = writes := by
  rw [enc.accepted_eq_filter, List.filter_eq_self]
  exact h

/-- **What was read is canonical content.**  If reads go well on some bytes, and none of them
gave no identifier, then the matching writes of their values are all accepted.  They produce no
more bytes than were consumed, these are read as the same values, and they are the bytes consumed
exactly if every number and length of variable size was in its shortest form and all bits passed
over were zero. -/
theorem fields_written_back {bytes : Bytes} {reads : List FieldRead} {values : List FieldValue}
    {dec : Decoder} (h : Reader.fields reads (Decoder.ofBytes bytes) = .ok values dec)
    (hvalues : FieldValue.identSafe none ∉ values) :
    ∃ writes, FieldRead.backAll reads values = some writes ∧
      Encoder.empty.accepted writes = writes ∧
      let produced := (Encoder.empty.writeAll writes).bytes
      let consumed := bytes.take (bytes.length - dec.remaining)
      produced.length ≤ consumed.length ∧
        (∃ again, Reader.fields reads (Decoder.ofBytes produced) = .ok values again ∧
          again.hasRemaining = false) ∧
        (produced = consumed ↔ FieldRead.TidyAll reads (Decoder.ofBytes bytes)) := by
  have hstart : Encoder.empty.Level (Decoder.ofBytes bytes) := rfl
  obtain ⟨writes, hback, hwritable, hmatch, taken, written, hunread, hbytes, hsame⟩ :=
    fields_back reads ⟨rfl, by simp [Decoder.ofBytes]⟩ Encoder.short_empty hstart h hvalues
  have haccepted := accepted_of_writable writes hwritable Encoder.empty
  have hproduced : Bytes.bits (Encoder.empty.writeAll writes).bytes = written := hbytes
  have hconsumed : Bytes.bits (bytes.take (bytes.length - dec.remaining)) = taken :=
    Bytes.bits_take hunread
  refine ⟨writes, hback, haccepted, ?_, ?_, ?_⟩
  · have hle := hsame.length_le
    rw [← hproduced, ← hconsumed, Bytes.length_bits, Bytes.length_bits] at hle
    omega
  · rw [← haccepted] at hmatch
    have hmirrors := mirrors_writeAll writes Encoder.empty hmatch
    obtain ⟨rolling, hahead⟩ := Encoder.ahead_bytes (hmirrors Encoder.short_empty).1
    exact ⟨_, hmirrors.from_start hahead, rfl⟩
  · rw [hsame.iff, ← hproduced, ← hconsumed, Bytes.bits_injective.eq_iff]

/-- A bit with garbage behind it, a length that takes a byte too many, and three bits with zeros
behind them: five bytes are read, and four are written for them. -/
theorem untidy_fields_written_back :
    (∃ dec, Reader.fields [.bool, .block 4, .bits 3]
        (Decoder.ofBytes [0xC1, 0x81, 0x00, 0x2A, 0xA0])
        = .ok [.bool true, .block [0x2A], .bits 5] dec ∧ dec.remaining = 0) ∧
      (Encoder.empty.writeAll [.bool true, .block [0x2A], .bits 5 3]).bytes
        = [0x80, 0x01, 0x2A, 0xA0] ∧
      ¬ FieldRead.TidyAll [.bool, .block 4, .bits 3]
        (Decoder.ofBytes [0xC1, 0x81, 0x00, 0x2A, 0xA0]) := by
  have hread : Reader.fields [.bool, .block 4, .bits 3]
      (Decoder.ofBytes [0xC1, 0x81, 0x00, 0x2A, 0xA0])
      = .ok [.bool true, .block [0x2A], .bits 5]
        ⟨[], [false, false, false, false, false], none⟩ := by rfl
  have hblock : Encoder.counted [0x2A] = [0x01, 0x2A] := by
    simp [Encoder.counted, Varint.putUnsigned]
  have hbytes : (Encoder.empty.writeAll [.bool true, .block [0x2A], .bits 5 3]).bytes
      = [0x80, 0x01, 0x2A, 0xA0] := by
    have hwrite : ∀ enc : Encoder, enc.write (.block [0x2A])
        = .ok ((enc.record .byteBlock).append [0x01, 0x2A]) := by
      intro enc
      rw [← hblock]
      rfl
    rw [Encoder.writeAll_cons_ok _ rfl, Encoder.writeAll_cons_ok _ (hwrite _)]
    rfl
  obtain ⟨writes, hback, -, -, -, hsame⟩ := fields_written_back hread (by simp)
  obtain rfl : [.bool true, .block [0x2A], .bits 5 3] = writes := Option.some.inj hback
  refine ⟨⟨_, hread, rfl⟩, hbytes, fun htidy => ?_⟩
  have hequal := hsame.mpr htidy
  rw [hbytes] at hequal
  exact absurd hequal (by decide)

end PathWire
