/-
A decoder stays in step with the encoder.

Fix the bytes that a finished encoder produced.  Every encoder on the way there has a place in
them: the whole bytes that are still to come, and, inside a rolling byte, the bits of it that
are still to come.  A decoder is in step if these are what it has not read yet.

Whether a byte string really continues what an encoder wrote is only known at the end, so the
argument runs backwards: from the place of the encoder after a write we get the place of the
encoder before it, and the matching read moves a decoder from the one to the other.  Stated
like this, reads compose just as writes do.
-/
import PathWire.Proofs.Codec.Text
import PathWire.Proofs.Codec.Varint
import PathWire.Codec.Decoder

namespace PathWire

namespace Encoder

/-- What of `whole` lies ahead of an encoder: the whole bytes `rest`, and the bits `rolling` of
the byte it is filling. -/
inductive Ahead (enc : Encoder) (whole : Bytes) : (rest : Bytes) → (rolling : List Bool) → Prop
  | aligned {rest : Bytes} (hrolling : enc.rolling = [])
      (hwhole : whole = enc.done.toList ++ rest) : Ahead enc whole rest []
  | inside {rest : Bytes} {rolling : List Bool} (byte : UInt8) (hrolling : enc.rolling ≠ [])
      (hwhole : whole = enc.done.toList ++ byte :: rest)
      (hbits : Byte.bits byte = enc.rolling ++ rolling) : Ahead enc whole rest rolling

/-- The rolling byte of an encoder is never full. -/
def Short (enc : Encoder) : Prop := enc.rolling.length < 8

theorem short_empty : empty.Short := by simp [Short, empty]

theorem short_record {enc : Encoder} (op : Op) (h : enc.Short) : (enc.record op).Short := h

/-- Before the first write everything lies ahead. -/
theorem ahead_empty {whole rest : Bytes} {rolling : List Bool}
    (h : empty.Ahead whole rest rolling) : rest = whole ∧ rolling = [] := by
  cases h with
  | aligned _ hwhole => exact ⟨hwhole.symm, rfl⟩
  | inside _ hne _ _ => exact absurd rfl hne

/-- Behind the last write no whole byte is left. -/
theorem ahead_bytes {enc : Encoder} (hshort : enc.Short) :
    ∃ rolling, enc.Ahead enc.bytes [] rolling := by
  by_cases h : enc.rolling = []
  · exact ⟨[], .aligned h (by simp [bytes, rollingBytes, h])⟩
  · refine ⟨_, .inside (Byte.ofBits enc.rolling) h ?_ (Byte.bits_ofBits (Nat.le_of_lt hshort))⟩
    have hopen : enc.rolling.isEmpty = false := by simpa using h
    simp [bytes, rollingBytes, hopen]

/-! ### One bit, and whole bytes -/

/-- A byte that has just been filled. -/
theorem bits_ofBits_full {bits : List Bool} (h : bits.length = 8) :
    Byte.bits (Byte.ofBits bits) = bits := by
  rw [Byte.bits_ofBits (Nat.le_of_eq h), h]
  simp

theorem short_pushBit (enc : Encoder) (bit : Bool) : (enc.pushBit bit).Short := by
  by_cases hroom : (enc.rolling ++ [bit]).length < 8
  · simp only [pushBit, Short, if_pos hroom]
    exact hroom
  · simp only [pushBit, Short, if_neg hroom]
    decide

/-- A bit joins the rolling byte, or completes it. -/
theorem pushBit_cases {enc : Encoder} (h : enc.Short) (bit : Bool) :
    enc.pushBit bit = { enc with rolling := enc.rolling ++ [bit] } ∨
      (enc.rolling ++ [bit]).length = 8 ∧ enc.pushBit bit = { enc with
        done := enc.done.push (Byte.ofBits (enc.rolling ++ [bit])), rolling := [] } := by
  have hshort : enc.rolling.length < 8 := h
  unfold pushBit
  by_cases hroom : (enc.rolling ++ [bit]).length < 8
  · exact .inl (if_pos hroom)
  · refine .inr ⟨?_, if_neg hroom⟩
    simp only [List.length_append, List.length_singleton] at hroom ⊢
    omega

/-- Pulling a bit undoes pushing it. -/
theorem ahead_pushBit {enc : Encoder} {bit : Bool} {whole rest : Bytes} {rolling : List Bool}
    (hshort : enc.Short) (h : (enc.pushBit bit).Ahead whole rest rolling) :
    ∃ rest₀ rolling₀, enc.Ahead whole rest₀ rolling₀ ∧
      Reader.pullBit ⟨rest₀, rolling₀, none⟩ = .ok bit ⟨rest, rolling, none⟩ := by
  unfold pushBit at h
  by_cases hroom : (enc.rolling ++ [bit]).length < 8
  · simp only [if_pos hroom] at h
    cases h with
    | aligned hrolling _ => simp at hrolling
    | inside byte _ hwhole hbits =>
        simp only [List.append_assoc, List.singleton_append] at hwhole hbits
        by_cases hopen : enc.rolling = []
        · refine ⟨byte :: rest, [], .aligned hopen hwhole, ?_⟩
          rw [hopen, List.nil_append] at hbits
          show EStateM.Result.ok ((Byte.bits byte).headD false)
            (⟨rest, (Byte.bits byte).tail, none⟩ : Decoder) = _
          rw [hbits]
          rfl
        · exact ⟨rest, bit :: rolling, .inside byte hopen hwhole hbits, rfl⟩
  · simp only [if_neg hroom] at h
    have hfull : (enc.rolling ++ [bit]).length = 8 := by
      have : enc.rolling.length < 8 := hshort
      simp only [List.length_append, List.length_singleton] at hroom ⊢
      omega
    cases h with
    | inside _ hne _ _ => exact absurd rfl hne
    | aligned _ hwhole =>
        have hopen : enc.rolling ≠ [] := by
          rintro hnil
          simp [hnil] at hfull
        refine ⟨rest, [bit], .inside (Byte.ofBits (enc.rolling ++ [bit])) hopen ?_ ?_, rfl⟩
        · simpa using hwhole
        · exact bits_ofBits_full hfull

theorem done_append (enc : Encoder) (bytes : Bytes) :
    (enc.append bytes).done.toList = enc.done.toList ++ (rollingBytes enc.rolling ++ bytes) := by
  simp [append]

theorem short_append {enc : Encoder} (bytes : Bytes) : (enc.append bytes).Short := by
  simp [append, Short]

/-- Whole bytes lie ahead of the encoder they are appended to. -/
theorem ahead_append {enc : Encoder} {bytes whole rest : Bytes} {rolling : List Bool}
    (hshort : enc.Short) (h : (enc.append bytes).Ahead whole rest rolling) :
    rolling = [] ∧ ∃ rolling₀, enc.Ahead whole (bytes ++ rest) rolling₀ := by
  cases h with
  | inside _ hne _ _ => exact absurd rfl hne
  | aligned _ hwhole =>
      refine ⟨rfl, ?_⟩
      rw [done_append] at hwhole
      by_cases hopen : enc.rolling = []
      · exact ⟨[], .aligned hopen (by simpa [rollingBytes, hopen] using hwhole)⟩
      · have hsealed : enc.rolling.isEmpty = false := by simpa using hopen
        refine ⟨_, .inside (Byte.ofBits enc.rolling) hopen ?_
          (Byte.bits_ofBits (Nat.le_of_lt hshort))⟩
        simpa [rollingBytes, hsealed] using hwhole

end Encoder

/-! ### Reads that mirror writes -/

/-- Reading gives `value` and moves a plain decoder from the place of the encoder `before` to
that of the encoder `after`, whatever is written next. -/
def Mirrors {ε α : Type} (read : EStateM ε Decoder α) (value : α) (before after : Encoder) :
    Prop :=
  before.Short → after.Short ∧ ∀ {whole rest : Bytes} {rolling : List Bool},
    after.Ahead whole rest rolling → ∃ rest₀ rolling₀, before.Ahead whole rest₀ rolling₀ ∧
      read ⟨rest₀, rolling₀, none⟩ = .ok value ⟨rest, rolling, none⟩

namespace Mirrors

variable {ε α β : Type}

theorem pure (value : α) (enc : Encoder) :
    Mirrors (Pure.pure value : EStateM ε Decoder α) value enc enc :=
  fun hshort => ⟨hshort, fun h => ⟨_, _, h, rfl⟩⟩

theorem bind {read : EStateM ε Decoder α} {next : α → EStateM ε Decoder β} {first : α}
    {value : β} {before between after : Encoder} (hread : Mirrors read first before between)
    (hnext : Mirrors (next first) value between after) :
    Mirrors (read >>= next) value before after := by
  intro hshort
  obtain ⟨hbetween, hfirst⟩ := hread hshort
  obtain ⟨hafter, hrest⟩ := hnext hbetween
  refine ⟨hafter, fun h => ?_⟩
  obtain ⟨rest₁, rolling₁, h₁, hstep₁⟩ := hrest h
  obtain ⟨rest₀, rolling₀, h₀, hstep₀⟩ := hfirst h₁
  refine ⟨rest₀, rolling₀, h₀, ?_⟩
  simp only [Bind.bind, EStateM.bind, hstep₀]
  exact hstep₁

theorem map {read : EStateM ε Decoder α} {value : α} {before after : Encoder} (f : α → β)
    (hread : Mirrors read value before after) :
    Mirrors (do return f (← read)) (f value) before after :=
  hread.bind (pure (f value) after)

/-- The log of a checking encoder has no part in this. -/
theorem of_record {read : EStateM ε Decoder α} {value : α} {before after : Encoder} (op : Op)
    (hread : Mirrors read value (before.record op) after) : Mirrors read value before after := by
  intro hshort
  obtain ⟨hafter, hread⟩ := hread (Encoder.short_record op hshort)
  refine ⟨hafter, fun h => ?_⟩
  obtain ⟨rest₀, rolling₀, h₀, hstep⟩ := hread h
  refine ⟨rest₀, rolling₀, ?_, hstep⟩
  cases h₀ with
  | aligned hrolling hwhole => exact .aligned hrolling hwhole
  | inside byte hrolling hwhole hbits => exact .inside byte hrolling hwhole hbits

/-- A decoder at the start of what was written, up to the encoder that `read` mirrors. -/
theorem from_start {read : EStateM ε Decoder α} {value : α} {after : Encoder}
    (hread : Mirrors read value .empty after) {whole rest : Bytes} {rolling : List Bool}
    (h : after.Ahead whole rest rolling) :
    read (Decoder.ofBytes whole) = .ok value ⟨rest, rolling, none⟩ := by
  obtain ⟨rest₀, rolling₀, h₀, hstep⟩ := (hread Encoder.short_empty).2 h
  obtain ⟨rfl, rfl⟩ := Encoder.ahead_empty h₀
  exact hstep

end Mirrors

namespace Reader

/-! ### Bit fields -/

/-- A plain decoder follows no log. -/
theorem mirrors_expect (op : Op) (enc : Encoder) : Mirrors (expect op) () enc enc :=
  fun hshort => ⟨hshort, fun h => ⟨_, _, h, rfl⟩⟩

theorem mirrors_pullBit (enc : Encoder) (bit : Bool) :
    Mirrors pullBit bit enc (enc.pushBit bit) :=
  fun hshort => ⟨Encoder.short_pushBit enc bit, fun h => Encoder.ahead_pushBit hshort h⟩

theorem mirrors_pullBits (bits : List Bool) : ∀ (acc : Nat) (enc : Encoder),
    Mirrors (pullBits acc bits.length) (bits.foldl Bits.shiftIn acc) enc (enc.pushBits bits) := by
  induction bits with
  | nil => intro acc enc; exact Mirrors.pure acc enc
  | cons bit rest ih =>
      intro acc enc
      exact (mirrors_pullBit enc bit).bind (ih (Bits.shiftIn acc bit) (enc.pushBit bit))

/-- Reading so many bits gives back a number that fits them. -/
theorem mirrors_number {value width : Nat} (h : value < Bits.bound width) (enc : Encoder) :
    Mirrors (pullBits 0 width) value enc (enc.pushBits (Bits.ofNat width value)) := by
  have hread := mirrors_pullBits (Bits.ofNat width value) 0 enc
  rw [Bits.length_ofNat] at hread
  have hvalue : (Bits.ofNat width value).foldl Bits.shiftIn 0 = value :=
    Bits.toNat_ofNat_of_lt h
  rwa [hvalue] at hread

theorem mirrors_bool (enc : Encoder) (value : Bool) :
    Mirrors bool value enc (enc.writeBool value) :=
  .of_record .bool ((mirrors_expect .bool _).bind (mirrors_pullBit _ value))

theorem mirrors_bits {enc after : Encoder} {value width : Nat}
    (h : enc.writeBits value width = .ok after) : Mirrors (bits width) value enc after := by
  unfold Encoder.writeBits at h
  by_cases hwidth : isBitCount width = true
  · rw [hwidth] at h
    by_cases hfits : value < Bits.bound width
    · simp only [Bool.not_true, Bool.false_eq_true, if_false, if_pos hfits,
        Except.ok.injEq] at h
      subst h
      refine .of_record (.bits width) ?_
      have hread : bits width = (do expect (.bits width); pullBits 0 width) := by
        unfold bits
        simp [hwidth]
      rw [hread]
      exact (mirrors_expect _ _).bind (mirrors_number hfits _)
    · simp [if_neg hfits] at h
  · simp [hwidth] at h

theorem enumBitWidth_ok {count width : Nat} (h : enumBitWidth count = .ok width) :
    0 < count ∧ width = Varint.bitLength (count - 1) := by
  unfold enumBitWidth at h
  by_cases hcount : count = 0
  · simp [hcount] at h
  · simp only [if_neg hcount, Except.ok.injEq] at h
    exact ⟨Nat.pos_of_ne_zero hcount, h.symm⟩

/-- A number is below the bound of its own bit length. -/
theorem lt_bound_bitLength (n : Nat) : n < Bits.bound (Varint.bitLength n) := by
  unfold Varint.bitLength
  by_cases h : n = 0
  · simp [h, Bits.bound]
  · rw [if_neg h]
    exact Nat.lt_log2_self

theorem bound_mono {m n : Nat} (h : m ≤ n) :
    Bits.bound (Varint.bitLength m) ≤ Bits.bound (Varint.bitLength n) := by
  refine Nat.pow_le_pow_right (by decide) ?_
  unfold Varint.bitLength
  by_cases hm : m = 0
  · simp [hm]
  · rw [if_neg hm, if_neg (by omega)]
    have hlog : m.log2 ≤ n.log2 := by
      rw [Nat.le_log2 (by omega)]
      exact Nat.le_trans (Nat.log2_self_le hm) h
    omega

theorem mirrors_enum {enc after : Encoder} {ordinal count : Nat}
    (h : enc.writeEnum ordinal count = .ok after) : Mirrors (enum count) ordinal enc after := by
  unfold Encoder.writeEnum at h
  cases hwidth : enumBitWidth count with
  | error cause => simp [hwidth, bind, Except.bind] at h
  | ok width =>
      obtain ⟨-, hlength⟩ := enumBitWidth_ok hwidth
      simp only [hwidth, bind, Except.bind] at h
      by_cases hordinal : ordinal < count
      · simp only [if_pos hordinal, pure, Except.pure, Except.ok.injEq] at h
        subst h
        have hfits : ordinal < Bits.bound width := by
          rw [hlength]
          exact Nat.lt_of_lt_of_le (lt_bound_bitLength ordinal) (bound_mono (by omega))
        have hread : enum count = (do
            expect (.enum count)
            let ordinal ← pullBits 0 width
            if ordinal < count then return ordinal else throw (.enumOutOfRange ordinal count)) := by
          unfold enum
          rw [hwidth]
          rfl
        rw [hread]
        refine .of_record (.enum count) ((mirrors_expect _ _).bind
          ((mirrors_number hfits _).bind ?_))
        rw [if_pos hordinal]
        exact .pure ordinal _
      · simp [if_neg hordinal] at h

/-! ### Byte-aligned fields -/

/-- A read that drops the rolling byte and takes exactly the appended bytes. -/
theorem mirrors_align {α : Type} {read : Reader α} {value : α} {bytes : Bytes}
    (h : ∀ rest : Bytes, read ⟨bytes ++ rest, [], none⟩ = .ok value ⟨rest, [], none⟩)
    (enc : Encoder) : Mirrors (do align; read) value enc (enc.append bytes) := by
  intro hshort
  refine ⟨Encoder.short_append bytes, fun hahead => ?_⟩
  obtain ⟨rfl, rolling₀, h₀⟩ := Encoder.ahead_append hshort hahead
  exact ⟨_, rolling₀, h₀, h _⟩

/-- The same for a read that looks at the log before. -/
theorem mirrors_aligned {α : Type} {read : Reader α} {value : α} {bytes : Bytes} (op : Op)
    (h : ∀ rest : Bytes, read ⟨bytes ++ rest, [], none⟩ = .ok value ⟨rest, [], none⟩)
    (enc : Encoder) :
    Mirrors (do expect op; align; read) value enc ((enc.record op).append bytes) :=
  .of_record op ((mirrors_expect op _).bind (mirrors_align h _))

theorem ensure_ok {needed : Nat} {dec : Decoder} (h : needed ≤ dec.remaining) :
    ensure needed dec = .ok () dec := by
  show (if dec.remaining < needed then throw (.unexpectedEof needed dec.remaining)
    else pure () : Reader Unit) dec = _
  rw [if_neg (Nat.not_lt.mpr h)]
  rfl

theorem ensure_short {needed : Nat} {dec : Decoder} (h : dec.remaining < needed) :
    ensure needed dec = .error (.unexpectedEof needed dec.remaining) dec := by
  show (if dec.remaining < needed then throw (.unexpectedEof needed dec.remaining)
    else pure () : Reader Unit) dec = _
  rw [if_pos h]
  rfl

/-- Taking the bytes in front of the others. -/
theorem take_append (bytes rest : Bytes) (rolling : List Bool) (check : Option Checker) :
    take bytes.length ⟨bytes ++ rest, rolling, check⟩ = .ok bytes ⟨rest, rolling, check⟩ := by
  have hroom : bytes.length ≤ (⟨bytes ++ rest, rolling, check⟩ : Decoder).remaining := by
    simp [Decoder.remaining]
  simp only [take, bind, EStateM.bind, ensure_ok hroom]
  show EStateM.Result.ok ((bytes ++ rest).take bytes.length)
    (⟨(bytes ++ rest).drop bytes.length, rolling, check⟩ : Decoder) = _
  rw [List.take_left, List.drop_left]

theorem mirrors_word {value count : Nat} (op : Op) (h : value < 256 ^ count) (enc : Encoder) :
    Mirrors (word op count) value enc
      ((enc.record op).append (Bytes.bigEndian count value)) := by
  have hread : ∀ rest : Bytes, (do return Bytes.toNat (← take count) : Reader Nat)
      ⟨Bytes.bigEndian count value ++ rest, [], none⟩ = .ok value ⟨rest, [], none⟩ := by
    intro rest
    have htake := take_append (Bytes.bigEndian count value) rest [] none
    rw [Bytes.length_bigEndian] at htake
    simp only [bind, EStateM.bind, htake]
    show EStateM.Result.ok (Bytes.toNat _) _ = _
    rw [Bytes.toNat_bigEndian_of_lt h]
  exact mirrors_aligned op hread enc

/-- The bytes of a machine word that holds a field of kind `op`. -/
theorem mirrors_machineWord {α : Type} {count : Nat} (width : Word α (· < 256 ^ count)) (op : Op)
    (enc : Encoder) (value : α) :
    Mirrors (do return width.make (← word op count)) value enc
      ((enc.record op).append (Bytes.bigEndian count (width.number value))) := by
  have hread := (mirrors_word op (width.fits value) enc).map width.make
  rwa [width.make_number] at hread

theorem mirrors_u8 (enc : Encoder) (value : UInt8) : Mirrors u8 value enc (enc.writeU8 value) := by
  have hread := mirrors_machineWord .u8 .u8 enc value
  have hbytes : Bytes.bigEndian 1 value.toNat = [value] := by
    simp [Bytes.bigEndian]
  rwa [Word.u8, hbytes] at hread

theorem onBytes_ok {α : Type} {step : ByteReader α} {value : α} {bytes rest : Bytes}
    {rolling : List Bool} {check : Option Checker} (h : step bytes = .ok value rest) :
    onBytes step ⟨bytes, rolling, check⟩ = .ok value ⟨rest, rolling, check⟩ := by
  simp only [onBytes, h]

theorem mirrors_varint {α : Type} {step : ByteReader α} {value : α} {bytes : Bytes} (op : Op)
    (h : ∀ rest : Bytes, step (bytes ++ rest) = .ok value rest) (enc : Encoder) :
    Mirrors (varint op step) value enc ((enc.record op).append bytes) :=
  mirrors_aligned op (fun rest => onBytes_ok (h rest)) enc

/-- A length field and the bytes it counts. -/
theorem mirrors_counted {data : Bytes} {limit : Nat} (tooLong : Nat → Nat → CodecError)
    (hfield : data.length ≤ maxLengthField) (hlimit : data.length ≤ limit) (enc : Encoder) :
    Mirrors (counted limit tooLong) data enc (enc.append (Encoder.counted data)) := by
  have hsize : data.length < 2 ^ 32 := Nat.lt_of_le_of_lt hfield (by decide)
  have hlength : (UInt32.ofNat data.length).toNat = data.length :=
    UInt32.toNat_ofNat_of_lt' hsize
  refine mirrors_align (fun rest => ?_) enc
  have hread := Varint.getU32_putU32 (UInt32.ofNat data.length) (data ++ rest)
  rw [Varint.putU32, hlength] at hread
  simp only [Encoder.counted, List.append_assoc, bind, EStateM.bind, onBytes_ok hread, hlength,
    if_neg (Nat.not_lt.mpr hlimit)]
  exact take_append data rest [] none

end Reader

end PathWire
