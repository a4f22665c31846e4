/-
What is written can be read back.

Every kind of write has a kind of read that matches it, and `Matches` says which value the
read then gives.  `Proofs/Codec/Lockstep.lean` moves a decoder along with one write; here the
sixteen kinds of fields are put into that form once, and sequences follow by induction.  A
rejected write leaves the encoder as it was, so only the accepted writes of a sequence have
reads to match.
-/
import PathWire.Proofs.Codec.Lockstep
import PathWire.Codec.Field

namespace PathWire

namespace Reader

/-! ### Texts and identifiers -/

theorem mirrors_text {content : String} {limit : Nat}
    (hfield : (Bytes.ofString content).length ≤ maxLengthField)
    (hlimit : (Bytes.ofString content).length ≤ limit) (enc : Encoder) :
    Mirrors (text limit) content enc (enc.append (Encoder.counted (Bytes.ofString content))) := by
  refine (mirrors_counted .stringTooLong hfield hlimit enc).bind ?_
  simp only [Utf8.decode_ofString]
  exact .pure content _

theorem mirrors_str {enc after : Encoder} {content : String} {bound limit : Nat}
    (h : enc.writeStr content bound = .ok after)
    (hlimit : (Bytes.ofString content).length ≤ limit) :
    Mirrors (str limit) content enc after := by
  unfold Encoder.writeStr at h
  by_cases hfits : (Bytes.ofString content).length ≤ maxLengthField ∧
      (Bytes.ofString content).length ≤ bound
  · simp only [if_pos hfits, Except.ok.injEq] at h
    subst h
    exact .of_record .str ((mirrors_expect .str _).bind (mirrors_text hfits.1 hlimit _))
  · simp [if_neg hfits] at h

theorem mirrors_byteBlock {enc after : Encoder} {data : Bytes} {limit : Nat}
    (h : enc.writeByteBlock data = .ok after) (hlimit : data.length ≤ limit) :
    Mirrors (byteBlock limit) data enc after := by
  unfold Encoder.writeByteBlock at h
  by_cases hfits : data.length ≤ maxLengthField
  · simp only [if_pos hfits, Except.ok.injEq] at h
    subst h
    exact .of_record .byteBlock
      ((mirrors_expect .byteBlock _).bind (mirrors_counted .blockTooLong hfits hlimit _))
  · simp [if_neg hfits] at h

/-- The text of an identifier, as both identifier reads start. -/
theorem mirrors_identifierText (enc : Encoder) (id : Identifier) :
    Mirrors (do expect .identifier; text maxIdentifierBytes) id.display enc
      (enc.writeIdentifier id) := by
  have hsize : (Bytes.ofString id.display).length ≤ maxIdentifierBytes := by
    rw [Bytes.length_ofString]
    exact id.utf8ByteSize_display_le
  have hfield : (Bytes.ofString id.display).length ≤ maxLengthField :=
    Nat.le_trans hsize (by decide)
  exact .of_record .identifier ((mirrors_expect _ _).bind (mirrors_text hfield hsize _))

theorem mirrors_identifier (enc : Encoder) (id : Identifier) :
    Mirrors identifier id enc (enc.writeIdentifier id) := by
  unfold identifier
  rw [← bind_assoc]
  refine (mirrors_identifierText enc id).bind ?_
  simp only [Identifier.parse_display]
  exact .pure id _

theorem mirrors_identifier? (enc : Encoder) (id : Identifier) :
    Mirrors identifier? (some id) enc (enc.writeIdentifier id) := by
  unfold identifier?
  rw [← bind_assoc]
  refine (mirrors_identifierText enc id).bind ?_
  simp only [Identifier.parse_display]
  exact .pure (some id) _

end Reader

/-! ### One field -/

/-- A read that matches a write, with the value it gives: of the same kind and parameter, and
with a limit that the value keeps. -/
inductive FieldWrite.Matches : FieldWrite → FieldRead → FieldValue → Prop
  | bool (value : Bool) : Matches (.bool value) .bool (.bool value)
  | bits (value width : Nat) : Matches (.bits value width) (.bits width) (.bits value)
  | enum (ordinal count : Nat) : Matches (.enum ordinal count) (.enum count) (.enum ordinal)
  | u8 (value : UInt8) : Matches (.u8 value) .u8 (.u8 value)
  | u16 (value : UInt16) : Matches (.u16 value) .u16 (.u16 value)
  | u32 (value : UInt32) : Matches (.u32 value) .u32 (.u32 value)
  | u64 (value : UInt64) : Matches (.u64 value) .u64 (.u64 value)
  | f32 (pattern : UInt32) : Matches (.f32 pattern) .f32 (.f32 pattern)
  | f64 (pattern : UInt64) : Matches (.f64 pattern) .f64 (.f64 pattern)
  | varI32 (value : Int32) : Matches (.varI32 value) .varI32 (.varI32 value)
  | varI64 (value : Int64) : Matches (.varI64 value) .varI64 (.varI64 value)
  | varU32 (value : UInt32) : Matches (.varU32 value) .varU32 (.varU32 value)
  | varU64 (value : UInt64) : Matches (.varU64 value) .varU64 (.varU64 value)
  | block (data : Bytes) (limit : Nat) (h : data.length ≤ limit) :
      Matches (.block data) (.block limit) (.block data)
  | str (content : String) (bound limit : Nat) (h : (Bytes.ofString content).length ≤ limit) :
      Matches (.str content bound) (.str limit) (.str content)
  | ident (id : Identifier) : Matches (.ident id) .ident (.ident id)
  | identSafe (id : Identifier) : Matches (.ident id) .identSafe (.identSafe (some id))

/-- The matching read mirrors an accepted write. -/
theorem FieldWrite.Matches.mirrors {field : FieldWrite} {read : FieldRead} {value : FieldValue}
    {enc after : Encoder} (hmatch : field.Matches read value)
    (hwrite : enc.write field = .ok after) : Mirrors (Reader.field read) value enc after := by
  cases hmatch with
  | bits number width => exact (Reader.mirrors_bits hwrite).map FieldValue.bits
  | enum ordinal count => exact (Reader.mirrors_enum hwrite).map FieldValue.enum
  | block data limit h => exact (Reader.mirrors_byteBlock hwrite h).map FieldValue.block
  | str content bound limit h => exact (Reader.mirrors_str hwrite h).map FieldValue.str
  | bool flag => cases hwrite; exact (Reader.mirrors_bool enc flag).map FieldValue.bool
  | u8 number => cases hwrite; exact (Reader.mirrors_u8 enc number).map FieldValue.u8
  | u16 number =>
      cases hwrite
      exact (Reader.mirrors_machineWord .u16 .u16 enc number).map FieldValue.u16
  | u32 number =>
      cases hwrite
      exact (Reader.mirrors_machineWord .u32 .u32 enc number).map FieldValue.u32
  | u64 number =>
      cases hwrite
      exact (Reader.mirrors_machineWord .u64 .u64 enc number).map FieldValue.u64
  | f32 pattern =>
      cases hwrite
      exact (Reader.mirrors_machineWord .u32 .f32 enc pattern).map FieldValue.f32
  | f64 pattern =>
      cases hwrite
      exact (Reader.mirrors_machineWord .u64 .f64 enc pattern).map FieldValue.f64
  | varI32 number =>
      cases hwrite
      exact (Reader.mirrors_varint .varI32 (Varint.getI32_putI32 number) enc).map FieldValue.varI32
  | varI64 number =>
      cases hwrite
      exact (Reader.mirrors_varint .varI64 (Varint.getI64_putI64 number) enc).map FieldValue.varI64
  | varU32 number =>
      cases hwrite
      exact (Reader.mirrors_varint .varU32 (Varint.getU32_putU32 number) enc).map FieldValue.varU32
  | varU64 number =>
      cases hwrite
      exact (Reader.mirrors_varint .varU64 (Varint.getU64_putU64 number) enc).map FieldValue.varU64
  | ident id => cases hwrite; exact (Reader.mirrors_identifier enc id).map FieldValue.ident
  | identSafe id => cases hwrite; exact (Reader.mirrors_identifier? enc id).map FieldValue.identSafe

/-! ### Sequences of fields -/

/-- Reads that match a sequence of writes one by one, with the values they give. -/
inductive MatchAll : List FieldWrite → List FieldRead → List FieldValue → Prop
  | nil : MatchAll [] [] []
  | cons {field : FieldWrite} {read : FieldRead} {value : FieldValue} {fields : List FieldWrite}
      {reads : List FieldRead} {values : List FieldValue} (hfield : field.Matches read value)
      (hrest : MatchAll fields reads values) :
      MatchAll (field :: fields) (read :: reads) (value :: values)

namespace Encoder

/-- The writes of a sequence that are accepted. -/
def accepted (enc : Encoder) : List FieldWrite → List FieldWrite
  | [] => []
  | field :: rest =>
    match enc.write field with
    | .ok enc => field :: enc.accepted rest
    | .error _ => enc.accepted rest

theorem accepted_cons_ok {enc after : Encoder} {field : FieldWrite} (rest : List FieldWrite)
    (h : enc.write field = .ok after) :
    enc.accepted (field :: rest) = field :: after.accepted rest := by
  rw [accepted, h]

theorem accepted_cons_error {enc : Encoder} {field : FieldWrite} {cause : CodecError}
    (rest : List FieldWrite) (h : enc.write field = .error cause) :
    enc.accepted (field :: rest) = enc.accepted rest := by
  rw [accepted, h]

theorem writeAll_cons_ok {enc after : Encoder} {field : FieldWrite} (rest : List FieldWrite)
    (h : enc.write field = .ok after) : enc.writeAll (field :: rest) = after.writeAll rest := by
  simp only [writeAll, List.foldl_cons, h, Except.toOption, Option.getD_some]

/-- A rejected write leaves no trace. -/
theorem writeAll_cons_error {enc : Encoder} {field : FieldWrite} {cause : CodecError}
    (rest : List FieldWrite) (h : enc.write field = .error cause) :
    enc.writeAll (field :: rest) = enc.writeAll rest := by
  simp only [writeAll, List.foldl_cons, h, Except.toOption, Option.getD_none]

end Encoder

/-- Reads that match the accepted writes of a sequence mirror the whole sequence. -/
theorem mirrors_writeAll (fields : List FieldWrite) :
    ∀ (enc : Encoder) {reads : List FieldRead} {values : List FieldValue},
      MatchAll (enc.accepted fields) reads values →
        Mirrors (Reader.fields reads) values enc (enc.writeAll fields) := by
  induction fields with
  | nil =>
      intro enc reads values h
      cases h
      exact .pure [] enc
  | cons field rest ih =>
      intro enc reads values h
      cases hwrite : enc.write field with
      | error cause =>
          rw [Encoder.accepted_cons_error rest hwrite] at h
          rw [Encoder.writeAll_cons_error rest hwrite]
          exact ih enc h
      | ok after =>
          rw [Encoder.accepted_cons_ok rest hwrite] at h
          rw [Encoder.writeAll_cons_ok rest hwrite]
          cases h with
          | cons hfield hrest => exact (hfield.mirrors hwrite).bind ((ih after hrest).map _)

/-! ### Writing on

Most of what is written into a message is not the library's but the application's.  All that is
known of it is that it went on from what was there. -/

/-- A later encoder: some fields were written in between. -/
def Encoder.Extends (before after : Encoder) : Prop :=
  ∃ fields : List FieldWrite, after = before.writeAll fields

theorem FieldWrite.exists_matches (field : FieldWrite) :
    ∃ read value, field.Matches read value := by
  cases field with
  | bool flag => exact ⟨_, _, .bool flag⟩
  | bits number width => exact ⟨_, _, .bits number width⟩
  | enum ordinal count => exact ⟨_, _, .enum ordinal count⟩
  | u8 number => exact ⟨_, _, .u8 number⟩
  | u16 number => exact ⟨_, _, .u16 number⟩
  | u32 number => exact ⟨_, _, .u32 number⟩
  | u64 number => exact ⟨_, _, .u64 number⟩
  | f32 pattern => exact ⟨_, _, .f32 pattern⟩
  | f64 pattern => exact ⟨_, _, .f64 pattern⟩
  | varI32 number => exact ⟨_, _, .varI32 number⟩
  | varI64 number => exact ⟨_, _, .varI64 number⟩
  | varU32 number => exact ⟨_, _, .varU32 number⟩
  | varU64 number => exact ⟨_, _, .varU64 number⟩
  | block data => exact ⟨_, _, .block data _ (Nat.le_refl _)⟩
  | str content bound => exact ⟨_, _, .str content bound _ (Nat.le_refl _)⟩
  | ident id => exact ⟨_, _, .ident id⟩

/-- Every sequence of fields has reads that match it. -/
theorem exists_matchAll (fields : List FieldWrite) :
    ∃ reads values, MatchAll fields reads values := by
  induction fields with
  | nil => exact ⟨[], [], .nil⟩
  | cons field rest ih =>
      obtain ⟨read, value, hfield⟩ := field.exists_matches
      obtain ⟨reads, values, hrest⟩ := ih
      exact ⟨_, _, .cons hfield hrest⟩

namespace Encoder.Extends

variable {before between after : Encoder}

theorem refl (enc : Encoder) : enc.Extends enc := ⟨[], rfl⟩

theorem trans (hfirst : before.Extends between) (hrest : between.Extends after) :
    before.Extends after := by
  obtain ⟨fields, rfl⟩ := hfirst
  obtain ⟨more, rfl⟩ := hrest
  exact ⟨fields ++ more, by simp [writeAll]⟩

theorem of_write {field : FieldWrite} (h : before.write field = .ok after) :
    before.Extends after :=
  ⟨[field], (writeAll_cons_ok [] h).symm⟩

/-- What was written first is read first, whatever was written on. -/
theorem read_start {ε α : Type} {read : EStateM ε Decoder α} {value : α}
    (h : before.Extends after) (hread : Mirrors read value .empty before) :
    ∃ dec, read (.ofBytes after.bytes) = .ok value dec := by
  obtain ⟨fields, rfl⟩ := h
  obtain ⟨reads, values, hmatch⟩ := exists_matchAll (before.accepted fields)
  obtain ⟨hshort, hahead⟩ := mirrors_writeAll fields before hmatch (hread short_empty).1
  obtain ⟨rolling, hend⟩ := ahead_bytes hshort
  obtain ⟨_, _, hplace, -⟩ := hahead hend
  exact ⟨_, hread.from_start hplace⟩

end Encoder.Extends

/-- **What was written is read back.**  Whatever is written in whatever order, a decoder on the
bytes that matches the accepted writes gives their values in order, and no whole byte is left
behind the last of them. -/
theorem fields_read_back {writes : List FieldWrite} {reads : List FieldRead}
    {values : List FieldValue} (h : MatchAll (Encoder.empty.accepted writes) reads values) :
    ∃ dec, Reader.fields reads (Decoder.ofBytes (Encoder.empty.writeAll writes).bytes)
        = .ok values dec ∧ dec.hasRemaining = false := by
  have hmirrors := mirrors_writeAll writes Encoder.empty h
  obtain ⟨rolling, hahead⟩ := Encoder.ahead_bytes (hmirrors Encoder.short_empty).1
  exact ⟨_, hmirrors.from_start hahead, rfl⟩

/-- Bits on both sides of whole bytes, an enumeration that takes no bits, and two rejected
writes in between. -/
theorem mixed_fields_read_back :
    ∃ dec, Reader.fields [.bits 3, .enum 1, .varI32, .bool, .bits 9, .str 2, .enum 1]
        (Decoder.ofBytes (Encoder.empty.writeAll [.bits 5 3, .bits 8 3, .enum 0 1, .varI32 (-70),
          .bool true, .bits 300 9, .str "abc" 2, .str "ab" 2, .enum 0 1]).bytes)
        = .ok [.bits 5, .enum 0, .varI32 (-70), .bool true, .bits 300, .str "ab", .enum 0] dec ∧
      dec.hasRemaining = false := by
  refine fields_read_back ?_
  have haccepted : Encoder.empty.accepted [.bits 5 3, .bits 8 3, .enum 0 1, .varI32 (-70),
      .bool true, .bits 300 9, .str "abc" 2, .str "ab" 2, .enum 0 1]
      = [.bits 5 3, .enum 0 1, .varI32 (-70), .bool true, .bits 300 9, .str "ab" 2,
        .enum 0 1] := by
    rfl
  rw [haccepted]
  exact .cons (.bits 5 3) (.cons (.enum 0 1) (.cons (.varI32 (-70)) (.cons (.bool true)
    (.cons (.bits 300 9) (.cons (.str "ab" 2 2 (by decide)) (.cons (.enum 0 1) .nil))))))

end PathWire
