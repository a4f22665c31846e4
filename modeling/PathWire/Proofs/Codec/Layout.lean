/-
What written fields look like on the wire.

The format is told here once more, without an encoder: every accepted field is a piece of its
own, either some bits or some whole bytes, bits that stand next to each other are one run, and a
run is filled up with zero bits.  Numbers are given by their digits at a place, variable-length
ones by their digits in base 128, and a byte of a run by the value of its eight places, so
nothing of the writer's loops is repeated.

The encoder builds the same bytes from left to right, one bit at a time.  What ties the two
together is `Encoder.onto`: the bytes there will be once given pieces have followed those already
written.  A bit pushed now and a bit at the head of what follows come to the same bytes, and so
do whole bytes, so moving the fields over one by one turns the layout of all pieces into the
encoder's own bytes.
-/
import PathWire.Proofs.Codec.RoundTrip

namespace PathWire

namespace Layout

/-! ### Numbers -/

/-- The digits of a number at so many places, the highest place first. -/
def places (base count value : Nat) : List Nat :=
  (List.range count).reverse.map fun place => value / Nat.pow base place % base

/-- A number in binary. -/
def binary (width value : Nat) : List Bool := (places 2 width value).map fun digit => digit == 1

/-- A number in bytes, the most significant one first. -/
def bigEndian (count value : Nat) : Bytes := (places 256 count value).map UInt8.ofNat

/-- The seven-bit groups of a number, the least significant one first; zero has one group. -/
def groups (value : Nat) : List Nat := if value = 0 then [0] else Nat.digits 128 value

/-- Groups as bytes: all but the last have their high bit set. -/
def continued (groups : List Nat) : Bytes :=
  (groups.dropLast.map fun group => UInt8.ofNat (group + 128)) ++
    groups.getLast?.toList.map UInt8.ofNat

/-- An unsigned number in a variable number of bytes. -/
def varint (value : Nat) : Bytes := continued (groups value)

/-- What is stored of a signed number besides its sign: a negative one is counted from `-1`
downwards. -/
def distance : Int → Nat
  | .ofNat value => value
  | .negSucc below => below

/-- A signed number in a variable number of bytes: the first one holds whether more follow, the
sign and six bits, the others are an unsigned number. -/
def signed (value : Int) : Bytes :=
  UInt8.ofNat (128 * (decide (64 ≤ distance value)).toNat + 64 * (decide (value < 0)).toNat +
      distance value % 64) ::
    if 64 ≤ distance value then varint (distance value / 64) else []

/-- Some bytes behind their number. -/
def counted (data : Bytes) : Bytes := varint data.length ++ data

/-! ### Pieces -/

/-- A part of the wire. -/
inductive Piece where
  /-- Bits, starting on a new byte. -/
  | run (bits : List Bool)
  /-- Whole bytes. -/
  | whole (bytes : Bytes)

/-- The byte whose eight places hold the first eight of some bits, and zero where there are
none. -/
def octet (bits : List Bool) : UInt8 :=
  UInt8.ofNat (Nat.ofDigits 2 ((List.range 8).reverse.map fun place =>
    (bits.getD place false).toNat))

/-- Bits in as few bytes as hold them. -/
def pack (bits : List Bool) : Bytes :=
  (List.range ((bits.length + 7) / 8)).map fun index => octet (bits.drop (8 * index))

namespace Piece

/-- The bytes of a piece. -/
def bytes : Piece → Bytes
  | run bits => pack bits
  | whole data => data

/-- How many bytes a piece takes: so many times eight bits, or its own number of bytes. -/
def size : Piece → Nat
  | run bits => (bits.length + 7) / 8
  | whole data => data.length

/-- Whether a piece is a run of bits. -/
def isRun : Piece → Bool
  | run _ => true
  | whole _ => false

/-- A piece before others.  Bits before a run are a part of it. -/
def before : Piece → List Piece → List Piece
  | run bits, run more :: rest => run (bits ++ more) :: rest
  | piece, rest => piece :: rest

end Piece

/-- What one field contributes. -/
def piece : FieldWrite → Piece
  | .bool value => .run [value]
  | .bits value width => .run (binary width value)
  | .enum ordinal count => .run (binary (Nat.clog 2 count) ordinal)
  | .u8 value => .whole (bigEndian 1 value.toNat)
  | .u16 value => .whole (bigEndian 2 value.toNat)
  | .u32 value | .f32 value => .whole (bigEndian 4 value.toNat)
  | .u64 value | .f64 value => .whole (bigEndian 8 value.toNat)
  | .varI32 value => .whole (signed value.toInt)
  | .varI64 value => .whole (signed value.toInt)
  | .varU32 value => .whole (varint value.toNat)
  | .varU64 value => .whole (varint value.toNat)
  | .block data => .whole (counted data)
  | .str text _ => .whole (counted (Bytes.ofString text))
  | .ident id => .whole (counted (Bytes.ofString (id.ns ++ ":" ++ id.path)))

/-- The pieces of a sequence of fields: its longest runs of bits, and the whole bytes between
them. -/
def cut : List FieldWrite → List Piece
  | [] => []
  | field :: rest => (piece field).before (cut rest)

/-- The bytes of pieces that follow each other. -/
def laid (pieces : List Piece) : Bytes := pieces.flatMap Piece.bytes

/-- Whether a field can be written. -/
def writable : FieldWrite → Bool
  | .bits value width => 1 ≤ width && width ≤ 32 && value < Nat.pow 2 width
  | .enum ordinal count => ordinal < count
  | .block data => data.length < Nat.pow 2 32
  | .str text limit => text.utf8ByteSize ≤ limit && text.utf8ByteSize < Nat.pow 2 32
  | _ => true

/-! ### The writer's numbers -/

theorem places_succ (base count value : Nat) : places base (count + 1) value
    = value / base ^ count % base :: places base count value := by
  simp [places, List.range_succ]

theorem ofNat_eq_binary (width value : Nat) : Bits.ofNat width value = binary width value := by
  induction width with
  | zero => rfl
  | succ width ih =>
      rw [Bits.ofNat, ih, binary, binary, places_succ, List.map_cons,
        Nat.testBit_eq_decide_div_mod_eq]
      rfl

theorem bigEndian_eq (count value : Nat) :
    Bytes.bigEndian count value = bigEndian count value := by
  induction count with
  | zero => rfl
  | succ count ih =>
      have hdigit : UInt8.ofNat (value / 256 ^ count % 256) = UInt8.ofNat (value / 256 ^ count) :=
        UInt8.ofNat_mod_size
      rw [Bytes.bigEndian_succ, ih, bigEndian, bigEndian, places_succ, List.map_cons, hdigit]

theorem groups_of_lt {value : Nat} (h : value < 128) : groups value = [value] := by
  unfold groups
  by_cases hzero : value = 0
  · simp [hzero]
  · rw [if_neg hzero, Nat.digits_of_lt 128 value hzero h]

theorem groups_of_le {value : Nat} (h : 128 ≤ value) :
    groups value = value % 128 :: groups (value / 128) := by
  have hmore : value / 128 ≠ 0 := by omega
  rw [groups, groups, if_neg (by omega), if_neg hmore, Nat.digits_def' (by decide) (by omega)]

theorem groups_ne_nil (value : Nat) : groups value ≠ [] := by
  by_cases h : value < 128
  · simp [groups_of_lt h]
  · simp [groups_of_le (Nat.le_of_not_lt h)]

theorem continued_cons (group : Nat) {rest : List Nat} (h : rest ≠ []) :
    continued (group :: rest) = UInt8.ofNat (group + 128) :: continued rest := by
  simp [continued, List.dropLast_cons_of_ne_nil h, List.getLast?_cons_of_ne_nil h]

theorem putUnsigned_eq (value : Nat) : Varint.putUnsigned value = varint value := by
  induction value using Nat.strong_induction_on with
  | _ value ih =>
      rw [Varint.putUnsigned, varint]
      by_cases h : value < 128
      · simp [if_pos h, groups_of_lt h, continued]
      · rw [if_neg h, groups_of_le (Nat.le_of_not_lt h), continued_cons _ (groups_ne_nil _),
          ih (value / 128) (by omega), varint]

theorem magnitude_eq (value : Int) : Varint.magnitude value = distance value := by
  cases value with
  | ofNat value => simp [Varint.magnitude, distance]
  | negSucc below =>
      simp only [Varint.magnitude, distance, Int.negSucc_lt_zero, if_true]
      omega

theorem putSigned_eq (value : Int) : Varint.putSigned value = signed value := by
  have hsign : Varint.signFlag (decide (value < 0)) = 64 * (decide (value < 0)).toNat := by
    by_cases h : value < 0 <;> simp [Varint.signFlag, h]
  unfold Varint.putSigned signed
  simp only [magnitude_eq, hsign]
  by_cases h : 64 ≤ distance value
  · rw [if_neg (Nat.not_lt.mpr h), if_pos h, putUnsigned_eq]
    congr 2
    simp [h]
    omega
  · rw [if_pos (Nat.lt_of_not_le h), if_neg h, Nat.mod_eq_of_lt (Nat.lt_of_not_le h)]
    simp [h, Nat.add_comm]

theorem counted_eq (data : Bytes) : Encoder.counted data = counted data := by
  rw [Encoder.counted, putUnsigned_eq, counted]

/-- An enumeration takes the least width that tells its ordinals apart. -/
theorem bitLength_eq_clog {count : Nat} (h : 0 < count) :
    Varint.bitLength (count - 1) = Nat.clog 2 count := by
  have hfits : count ≤ 2 ^ Varint.bitLength (count - 1) := by
    have hlt : count - 1 < 2 ^ Varint.bitLength (count - 1) :=
      Reader.lt_bound_bitLength (count - 1)
    omega
  refine Nat.le_antisymm ?_ (Nat.clog_le_of_le_pow hfits)
  unfold Varint.bitLength
  by_cases hone : count - 1 = 0
  · simp [hone]
  · have hlow : 2 ^ (count - 1).log2 ≤ count - 1 := Nat.log2_self_le hone
    rw [if_neg hone]
    exact (Nat.lt_clog_iff_pow_lt (by decide)).mpr (by omega)

/-- A length field holds every length below `2 ^ 32`. -/
theorem le_maxLengthField {length : Nat} : length ≤ maxLengthField ↔ length < Nat.pow 2 32 :=
  Nat.lt_succ_iff.symm

/-! ### Bytes of a run -/

theorem ofDigits_reverse (bits : List Bool) :
    Nat.ofDigits 2 (bits.reverse.map Bool.toNat) = Bits.toNat bits := by
  induction bits with
  | nil => rfl
  | cons bit rest ih =>
      rw [List.reverse_cons, List.map_append, Nat.ofDigits_append, ih, Bits.toNat_cons]
      simp [Nat.mul_comm, Nat.add_comm]

theorem octet_eq (bits : List Bool) : octet bits = Byte.ofBits bits := by
  have hplaces : (List.range 8).map (fun place => bits.getD place false)
      = (bits ++ List.replicate 8 false).take 8 := by
    refine List.ext_getElem (by simp) ?_
    intro place hleft hright
    rw [List.getElem_map, List.getElem_range, List.getElem_take]
    by_cases hin : place < bits.length
    · rw [List.getElem_append_left hin, List.getD_eq_getElem _ _ hin]
    · rw [List.getElem_append_right (Nat.le_of_not_lt hin), List.getElem_replicate,
        List.getD_eq_default _ _ (Nat.le_of_not_lt hin)]
  rw [octet, Byte.ofBits, ← hplaces, ← ofDigits_reverse, ← List.map_reverse, List.map_map]
  rfl

theorem octet_append {bits : List Bool} (h : bits.length = 8) (more : List Bool) :
    octet (bits ++ more) = octet bits := by
  rw [octet_eq, octet_eq, Byte.ofBits, Byte.ofBits, List.append_assoc,
    List.take_append_of_le_length (Nat.le_of_eq h.symm),
    List.take_append_of_le_length (Nat.le_of_eq h.symm)]

/-- The first byte of a run does not depend on the bits behind it. -/
theorem pack_append {bits : List Bool} (h : bits.length = 8) (more : List Bool) :
    pack (bits ++ more) = Byte.ofBits bits :: pack more := by
  have hcount : ((bits ++ more).length + 7) / 8 = (more.length + 7) / 8 + 1 := by
    rw [List.length_append, h]
    omega
  have hfirst : octet ((bits ++ more).drop (8 * 0)) = Byte.ofBits bits := by
    rw [Nat.mul_zero, List.drop_zero, octet_append h, octet_eq]
  have hrest : ∀ index, (bits ++ more).drop (8 * (index + 1)) = more.drop (8 * index) := by
    intro index
    rw [Nat.mul_add, Nat.add_comm, ← List.drop_drop, Nat.mul_one, ← h, List.drop_left]
  simp only [pack, hcount, List.range_succ_eq_map, List.map_cons, List.map_map, hfirst,
    Function.comp_def, Nat.succ_eq_add_one, hrest]

/-- An unfinished run is sealed as the rolling byte is. -/
theorem pack_eq_rollingBytes {bits : List Bool} (h : bits.length < 8) :
    pack bits = Encoder.rollingBytes bits := by
  by_cases hnil : bits = []
  · subst hnil
    rfl
  · have hopen : bits.isEmpty = false := by simpa using hnil
    have hlength : 0 < bits.length := List.length_pos_of_ne_nil hnil
    have hcount : (bits.length + 7) / 8 = 1 := by omega
    simp [pack, hcount, octet_eq, Encoder.rollingBytes, hopen]

theorem length_pack (bits : List Bool) : (pack bits).length = (bits.length + 7) / 8 := by
  simp [pack]

/-! ### Pieces put together -/

/-- A piece before others starts what comes of them. -/
theorem isChain_before {piece : Piece} {pieces : List Piece}
    (h : pieces.IsChain fun one next => one.isRun = true → next.isRun = false) :
    (piece.before pieces).IsChain fun one next => one.isRun = true → next.isRun = false := by
  rcases pieces with _ | ⟨first, rest⟩
  · cases piece <;> exact .singleton _
  · cases piece with
    | whole data => exact .cons_cons (fun hrun => by cases hrun) h
    | run bits =>
        cases first with
        | whole data => exact .cons_cons (fun _ => rfl) h
        | run more =>
            rcases rest with _ | ⟨second, rest⟩
            · exact .singleton _
            · rw [List.isChain_cons_cons] at h
              exact .cons_cons (fun _ => h.1 rfl) h.2

/-- Two runs never follow each other: they would be one. -/
theorem isChain_cut (fields : List FieldWrite) :
    (cut fields).IsChain fun one next => one.isRun = true → next.isRun = false := by
  induction fields with
  | nil => exact .nil
  | cons field rest ih => exact isChain_before ih

theorem laid_cons (first : Piece) (rest : List Piece) :
    laid (first :: rest) = first.bytes ++ laid rest := by
  simp [laid]

/-- No bits before some pieces make no difference. -/
theorem laid_before_nil (pieces : List Piece) :
    laid ((Piece.run []).before pieces) = laid pieces := by
  rcases pieces with _ | ⟨⟨more⟩ | data, rest⟩
  · rfl
  · rfl
  · rfl

theorem before_before (bits more : List Bool) (pieces : List Piece) :
    (Piece.run bits).before ((Piece.run more).before pieces)
      = (Piece.run (bits ++ more)).before pieces := by
  rcases pieces with _ | ⟨⟨last⟩ | data, rest⟩
  · rfl
  · simp [Piece.before]
  · rfl

/-- Eight bits are a byte of their own, whatever follows. -/
theorem laid_before_octet {bits : List Bool} (h : bits.length = 8) (pieces : List Piece) :
    laid ((Piece.run bits).before pieces) = Byte.ofBits bits :: laid pieces := by
  have halone : pack bits = [Byte.ofBits bits] := by
    have := pack_append h []
    rwa [List.append_nil] at this
  rcases pieces with _ | ⟨⟨more⟩ | data, rest⟩
  · simp [Piece.before, laid, Piece.bytes, halone]
  · simp [Piece.before, laid, Piece.bytes, pack_append h]
  · simp [Piece.before, laid, Piece.bytes, halone]

theorem length_laid (pieces : List Piece) :
    (laid pieces).length = (pieces.map Piece.size).sum := by
  induction pieces with
  | nil => rfl
  | cons first rest ih =>
      rw [laid_cons, List.length_append, ih, List.map_cons, List.sum_cons]
      cases first with
      | run bits => rw [Piece.bytes, Piece.size, length_pack]
      | whole data => rw [Piece.bytes, Piece.size]

end Layout

/-! ### The encoder lays out the same bytes -/

namespace Encoder

open Layout (Piece)

/-- The bytes of an encoder once `pieces` have followed what it has written. -/
def onto (enc : Encoder) (pieces : List Piece) : Bytes :=
  enc.done.toList ++ Layout.laid ((Piece.run enc.rolling).before pieces)

/-- An encoder that nothing follows. -/
theorem onto_nil {enc : Encoder} (h : enc.Short) : enc.onto [] = enc.bytes := by
  have hseal : Layout.pack enc.rolling = rollingBytes enc.rolling :=
    Layout.pack_eq_rollingBytes h
  simp [onto, bytes, Piece.before, Layout.laid, Piece.bytes, hseal]

theorem onto_pushBit {enc : Encoder} (h : enc.Short) (bit : Bool) (pieces : List Piece) :
    (enc.pushBit bit).onto pieces = enc.onto ((Piece.run [bit]).before pieces) := by
  rw [onto, onto, Layout.before_before]
  rcases pushBit_cases h bit with hpush | ⟨hfull, hpush⟩
  · rw [hpush]
  · rw [hpush, Layout.laid_before_nil, Layout.laid_before_octet hfull]
    simp

theorem onto_pushBits (bits : List Bool) : ∀ {enc : Encoder}, enc.Short →
    (enc.pushBits bits).Short ∧ ∀ pieces,
      (enc.pushBits bits).onto pieces = enc.onto ((Piece.run bits).before pieces) := by
  induction bits with
  | nil =>
      intro enc h
      refine ⟨h, fun pieces => ?_⟩
      show enc.onto pieces = _
      rw [onto, onto, Layout.before_before, List.append_nil]
  | cons bit rest ih =>
      intro enc h
      obtain ⟨hshort, hrest⟩ := ih (short_pushBit enc bit)
      refine ⟨hshort, fun pieces => ?_⟩
      have hpush := hrest pieces
      rw [onto_pushBit h, Layout.before_before] at hpush
      exact hpush

theorem onto_append {enc : Encoder} (h : enc.Short) (data : Bytes) (pieces : List Piece) :
    (enc.append data).onto pieces = enc.onto ((Piece.whole data).before pieces) := by
  have hseal : Layout.pack enc.rolling = rollingBytes enc.rolling :=
    Layout.pack_eq_rollingBytes h
  have hrolling : (enc.append data).rolling = [] := rfl
  rw [onto, hrolling, Layout.laid_before_nil, done_append, onto]
  simp [Piece.before, Layout.laid_cons, Piece.bytes, hseal]

theorem length_eq (enc : Encoder) : enc.length = enc.bytes.length := by
  simp [length, bytes]

/-- Adds a piece. -/
def put (enc : Encoder) : Piece → Encoder
  | .run bits => enc.pushBits bits
  | .whole data => enc.append data

theorem onto_put {enc : Encoder} (h : enc.Short) (piece : Piece) :
    (enc.put piece).Short ∧
      ∀ pieces, (enc.put piece).onto pieces = enc.onto (piece.before pieces) := by
  cases piece with
  | run bits => exact onto_pushBits bits h
  | whole data => exact ⟨short_append data, fun pieces => onto_append h data pieces⟩

/-- A field that can be written adds its piece. -/
theorem write_writable (enc : Encoder) {field : FieldWrite} (h : Layout.writable field = true) :
    ∃ op, enc.write field = .ok ((enc.record op).put (Layout.piece field)) := by
  cases field with
  | bool value => exact ⟨.bool, rfl⟩
  | bits value width =>
      simp only [Layout.writable, Bool.and_eq_true, decide_eq_true_eq] at h
      obtain ⟨⟨hlow, hhigh⟩, hfits⟩ := h
      have hwidth : isBitCount width = true := by simp [isBitCount, hlow, hhigh]
      have hbound : value < Bits.bound width := hfits
      refine ⟨.bits width, ?_⟩
      simp [write, writeBits, hwidth, hbound, put, Layout.piece, Layout.ofNat_eq_binary]
  | enum ordinal count =>
      have hordinal : ordinal < count := of_decide_eq_true h
      have hwidth : enumBitWidth count = .ok (Nat.clog 2 count) := by
        rw [enumBitWidth, if_neg (by omega), Layout.bitLength_eq_clog (by omega)]
      refine ⟨.enum count, ?_⟩
      simp only [write, writeEnum, hwidth, bind, Except.bind, if_pos hordinal, put, Layout.piece,
        Layout.ofNat_eq_binary]
      rfl
  | u8 value =>
      have hbyte : Layout.bigEndian 1 value.toNat = [value] := by
        simp [← Layout.bigEndian_eq, Bytes.bigEndian]
      exact ⟨.u8, by simp [write, writeU8, put, Layout.piece, hbyte]⟩
  | u16 value => exact ⟨.u16, by simp [write, writeU16, put, Layout.piece, Layout.bigEndian_eq]⟩
  | u32 value => exact ⟨.u32, by simp [write, writeU32, put, Layout.piece, Layout.bigEndian_eq]⟩
  | u64 value => exact ⟨.u64, by simp [write, writeU64, put, Layout.piece, Layout.bigEndian_eq]⟩
  | f32 value => exact ⟨.f32, by simp [write, writeF32, put, Layout.piece, Layout.bigEndian_eq]⟩
  | f64 value => exact ⟨.f64, by simp [write, writeF64, put, Layout.piece, Layout.bigEndian_eq]⟩
  | varI32 value =>
      exact ⟨.varI32, by
        simp [write, writeVarI32, Varint.putI32, put, Layout.piece, Layout.putSigned_eq]⟩
  | varI64 value =>
      exact ⟨.varI64, by
        simp [write, writeVarI64, Varint.putI64, put, Layout.piece, Layout.putSigned_eq]⟩
  | varU32 value =>
      exact ⟨.varU32, by
        simp [write, writeVarU32, Varint.putU32, put, Layout.piece, Layout.putUnsigned_eq]⟩
  | varU64 value =>
      exact ⟨.varU64, by
        simp [write, writeVarU64, Varint.putU64, put, Layout.piece, Layout.putUnsigned_eq]⟩
  | block data =>
      have hlength : data.length ≤ maxLengthField :=
        Layout.le_maxLengthField.mpr (of_decide_eq_true h)
      exact ⟨.byteBlock, by
        simp [write, writeByteBlock, hlength, put, Layout.piece, Layout.counted_eq]⟩
  | str text limit =>
      simp only [Layout.writable, Bool.and_eq_true, decide_eq_true_eq,
        ← Layout.le_maxLengthField] at h
      exact ⟨.str, by
        simp [write, writeStr, Bytes.length_ofString, h, put, Layout.piece, Layout.counted_eq]⟩
  | ident id =>
      exact ⟨.identifier, by
        simp [write, writeIdentifier, put, Layout.piece, Layout.counted_eq, Identifier.display]⟩

/-- Any other field is rejected. -/
theorem write_unwritable (enc : Encoder) {field : FieldWrite} (h : Layout.writable field = false) :
    ∃ cause, enc.write field = .error cause := by
  cases field with
  | bits value width =>
      by_cases hwidth : isBitCount width = true
      · have hbound : ¬ value < Bits.bound width := by
          intro hfits
          simp only [isBitCount, Bool.and_eq_true] at hwidth
          simp only [Layout.writable, hwidth, Bool.true_and, decide_eq_false_iff_not] at h
          exact h hfits
        exact ⟨.valueOutOfRange value width, by simp [write, writeBits, hwidth, hbound]⟩
      · exact ⟨.invalidBitCount width, by simp [write, writeBits, hwidth]⟩
  | enum ordinal count =>
      have hordinal : ¬ ordinal < count := of_decide_eq_false h
      cases hwidth : enumBitWidth count with
      | error cause => exact ⟨cause, by simp [write, writeEnum, hwidth, bind, Except.bind]⟩
      | ok width =>
          refine ⟨.valueOutOfRange ordinal width, ?_⟩
          simp only [write, writeEnum, hwidth, bind, Except.bind, if_neg hordinal]
          rfl
  | block data =>
      have hlength : ¬ data.length ≤ maxLengthField := by
        rw [Layout.le_maxLengthField]
        exact of_decide_eq_false h
      exact ⟨.blockTooLong data.length maxLengthField, by simp [write, writeByteBlock, hlength]⟩
  | str text limit =>
      have hlength : ¬ (text.utf8ByteSize ≤ maxLengthField ∧ text.utf8ByteSize ≤ limit) := by
        rw [Layout.le_maxLengthField]
        rintro ⟨hfield, hlimit⟩
        simp [Layout.writable, hfield, hlimit] at h
      refine ⟨.stringTooLong text.utf8ByteSize limit, ?_⟩
      simp [write, writeStr, Bytes.length_ofString, hlength]
  | _ => cases h

/-- What the encoder accepts are the fields that can be written. -/
theorem accepted_eq_filter (writes : List FieldWrite) : ∀ enc : Encoder,
    enc.accepted writes = writes.filter Layout.writable := by
  induction writes with
  | nil => intro enc; rfl
  | cons field rest ih =>
      intro enc
      cases h : Layout.writable field with
      | true =>
          obtain ⟨op, hwrite⟩ := enc.write_writable h
          rw [accepted_cons_ok rest hwrite, List.filter_cons_of_pos h, ih]
      | false =>
          obtain ⟨cause, hwrite⟩ := enc.write_unwritable h
          rw [accepted_cons_error rest hwrite, ih]
          simp [h]

/-- Whatever is written, the encoder goes on laying out the pieces. -/
theorem onto_writeAll (writes : List FieldWrite) : ∀ {enc : Encoder}, enc.Short →
    (enc.writeAll writes).Short ∧
      (enc.writeAll writes).onto [] = enc.onto (Layout.cut (enc.accepted writes)) := by
  induction writes with
  | nil => intro enc h; exact ⟨h, rfl⟩
  | cons field rest ih =>
      intro enc h
      cases hfield : Layout.writable field with
      | true =>
          obtain ⟨op, hwrite⟩ := enc.write_writable hfield
          rw [writeAll_cons_ok rest hwrite, accepted_cons_ok rest hwrite]
          obtain ⟨hshort, hpiece⟩ := onto_put (short_record op h) (Layout.piece field)
          obtain ⟨hend, hrest⟩ := ih hshort
          refine ⟨hend, ?_⟩
          rw [hrest, hpiece]
          rfl
      | false =>
          obtain ⟨cause, hwrite⟩ := enc.write_unwritable hfield
          rw [writeAll_cons_error rest hwrite, accepted_cons_error rest hwrite]
          exact ih h

end Encoder

/-- **Fields are laid out as the format says.**  Whatever is written in whatever order, with or
without a log: exactly the fields that can be written are accepted.  Cut into runs of bits, no
two of them next to each other, and the whole bytes between them, they are the bytes written,
and the number of bytes is the sum of the sizes of these pieces. -/
theorem fields_laid_out (log : Option OpLog) (writes : List FieldWrite) :
    let fresh : Encoder := { Encoder.empty with log }
    let pieces := Layout.cut (fresh.accepted writes)
    fresh.accepted writes = writes.filter Layout.writable ∧
      pieces.IsChain (fun one next => one.isRun = true → next.isRun = false) ∧
      (fresh.writeAll writes).bytes = Layout.laid pieces ∧
      (fresh.writeAll writes).length = (pieces.map Layout.Piece.size).sum := by
  intro fresh pieces
  have hstart : fresh.Short := Encoder.short_empty
  obtain ⟨hshort, hpieces⟩ := Encoder.onto_writeAll writes hstart
  have hbytes : (fresh.writeAll writes).bytes = Layout.laid pieces := by
    rw [← Encoder.onto_nil hshort, hpieces]
    exact Layout.laid_before_nil pieces
  refine ⟨fresh.accepted_eq_filter writes, Layout.isChain_cut _, hbytes, ?_⟩
  rw [← Layout.length_laid, ← hbytes, Encoder.length_eq]

/-- Twelve bits around a whole byte: two runs, the second one of nine bits. -/
example : Layout.laid (Layout.cut [.bits 5 3, .u8 7, .bool true, .bits 3 8])
    = [0xA0, 0x07, 0x81, 0x80] := by decide

end PathWire
