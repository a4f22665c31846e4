/-
Frames do not depend on how the stream is cut.

A stream arrives in chunks of any size, and whoever reads it takes frames off the bytes that have
arrived until there is none to take.  More bytes behind a buffer change nothing about a frame
that is complete, and nothing about a length that is too large, because both are decided by the
bytes in front.  Only a buffer that waits can be decoded otherwise later, and it has lost nothing
until then.  So draining some bytes and then some more is draining all of them at once, and the
chunks follow one by one.
-/
import PathWire.Frame.Delimited
import PathWire.Proofs.Bytes

namespace PathWire

namespace FrameCodec

variable {codec : FrameCodec} {buffer frame rest : Bytes}

/-! ### One frame -/

/-- What a buffer is good for, now and with more bytes behind it. -/
inductive Decodes (codec : FrameCodec) (buffer : Bytes) : Prop
  /-- More bytes are needed. -/
  | waits (h : codec.decode buffer = (.ok none, buffer))
  /-- The length in front is too large, and stays so. -/
  | refused (length : Nat) (hlength : codec.maxFrame < length)
      (h : codec.decode buffer = (.error (.frameTooLarge length codec.maxFrame), buffer))
      (hmore : ∀ more, codec.decode (buffer ++ more)
        = (.error (.frameTooLarge length codec.maxFrame), buffer ++ more))
  /-- A frame is complete, and more bytes go behind what it leaves. -/
  | complete (frame rest : Bytes) (hrest : rest.length < buffer.length)
      (h : codec.decode buffer = (.ok (some frame), rest))
      (hmore : ∀ more, codec.decode (buffer ++ more) = (.ok (some frame), rest ++ more))

theorem decodes (codec : FrameCodec) (buffer : Bytes) : codec.Decodes buffer := by
  by_cases hfield : buffer.length < lengthFieldBytes
  · exact .waits (by simp only [decode, if_pos hfield])
  have hroom : lengthFieldBytes ≤ buffer.length := Nat.le_of_not_lt hfield
  have hlong : ∀ more, ¬ (buffer ++ more).length < lengthFieldBytes := by
    intro more
    rw [List.length_append]
    omega
  have htake : ∀ more, (buffer ++ more).take lengthFieldBytes = buffer.take lengthFieldBytes :=
    fun more => List.take_append_of_le_length hroom
  have hdrop : ∀ more, (buffer ++ more).drop lengthFieldBytes
      = buffer.drop lengthFieldBytes ++ more := fun more => List.drop_append_of_le_length hroom
  set length := Bytes.toNat (buffer.take lengthFieldBytes) with hlength
  set body := buffer.drop lengthFieldBytes with hbody
  by_cases hlarge : codec.maxFrame < length
  · have hmore : ∀ more, codec.decode (buffer ++ more)
        = (.error (.frameTooLarge length codec.maxFrame), buffer ++ more) := by
      intro more
      simp only [decode, if_neg (hlong more), htake, ← hlength, if_pos hlarge]
    exact .refused length hlarge (by simpa using hmore []) hmore
  by_cases hshort : body.length < length
  · exact .waits (by simp only [decode, if_neg hfield, ← hlength, if_neg hlarge, ← hbody,
      if_pos hshort])
  have hcomplete : length ≤ body.length := Nat.le_of_not_lt hshort
  have hmore : ∀ more, codec.decode (buffer ++ more)
      = (.ok (some (body.take length)), body.drop length ++ more) := by
    intro more
    have hbehind : ¬ (body ++ more).length < length := by
      rw [List.length_append]
      omega
    simp only [decode, if_neg (hlong more), htake, ← hlength, if_neg hlarge, hdrop,
      if_neg hbehind, List.take_append_of_le_length hcomplete,
      List.drop_append_of_le_length hcomplete]
  have hshorter : (body.drop length).length < buffer.length := by
    have hfour : 0 < lengthFieldBytes := by decide
    rw [List.length_drop, hbody, List.length_drop]
    omega
  exact .complete _ _ hshorter (by simpa using hmore []) hmore

/-- A complete frame takes bytes off the buffer. -/
theorem decode_shorter (h : codec.decode buffer = (.ok (some frame), rest)) :
    rest.length < buffer.length := by
  rcases codec.decodes buffer with hwaits | ⟨_, -, hrefused, -⟩ | ⟨_, _, hrest, hdone, -⟩
  · cases hwaits.symm.trans h
  · cases hrefused.symm.trans h
  · cases hdone.symm.trans h
    exact hrest

/-! ### All frames of a buffer -/

/-- What was taken off a stream. -/
structure Intake where
  frames : List Bytes
  /-- The first error met. -/
  fault : Option TransportError
  /-- The bytes not taken yet. -/
  rest : Bytes
  deriving DecidableEq

namespace Intake

/-- A frame in front of what was taken behind it. -/
def cons (frame : Bytes) (intake : Intake) : Intake :=
  { intake with frames := frame :: intake.frames }

end Intake

/-- Decodes a buffer until it gives no frame. -/
def drain (codec : FrameCodec) (buffer : Bytes) : Intake :=
  match _h : codec.decode buffer with
  | (.ok (some frame), rest) => .cons frame (drain codec rest)
  | (.ok none, rest) => ⟨[], none, rest⟩
  | (.error cause, rest) => ⟨[], some cause, rest⟩
termination_by buffer.length
decreasing_by exact decode_shorter _h

theorem drain_eq (codec : FrameCodec) (buffer : Bytes) :
    codec.drain buffer = match codec.decode buffer with
      | (.ok (some frame), rest) => .cons frame (codec.drain rest)
      | (.ok none, rest) => ⟨[], none, rest⟩
      | (.error cause, rest) => ⟨[], some cause, rest⟩ := by
  rw [drain]
  split <;> rename_i hdecode <;> rw [hdecode]

theorem drain_frame (h : codec.decode buffer = (.ok (some frame), rest)) :
    codec.drain buffer = .cons frame (codec.drain rest) := by
  rw [drain_eq, h]

/-- Takes in one more chunk: it joins the bytes that are left, and these are decoded. -/
def takeIn (codec : FrameCodec) (intake : Intake) (chunk : Bytes) : Intake :=
  let more := codec.drain (intake.rest ++ chunk)
  ⟨intake.frames ++ more.frames, intake.fault <|> more.fault, more.rest⟩

/-- Takes in the chunks of a stream, one after the other. -/
def feed (codec : FrameCodec) (chunks : List Bytes) : Intake :=
  chunks.foldl codec.takeIn ⟨[], none, []⟩

theorem takeIn_cons (intake : Intake) (chunk : Bytes) :
    codec.takeIn (.cons frame intake) chunk = .cons frame (codec.takeIn intake chunk) := rfl

/-- Draining some bytes and then some more is draining all of them. -/
theorem drain_append (codec : FrameCodec) (buffer chunk : Bytes) :
    codec.drain (buffer ++ chunk) = codec.takeIn (codec.drain buffer) chunk := by
  induction hsize : buffer.length using Nat.strongRecOn generalizing buffer with
  | _ size ih =>
      rcases codec.decodes buffer with hwaits | ⟨_, -, hrefused, hmore⟩ |
        ⟨_, rest, hrest, hdone, hmore⟩
      · rw [codec.drain_eq buffer, hwaits]
        rfl
      · have hstill := codec.drain_eq (buffer ++ chunk)
        rw [hmore] at hstill
        rw [codec.drain_eq buffer, hrefused, takeIn, hstill]
        rfl
      · rw [drain_frame (hmore chunk), drain_frame hdone, takeIn_cons,
          ih rest.length (hsize ▸ hrest) rest rfl]

theorem drain_nil (codec : FrameCodec) : codec.drain [] = ⟨[], none, []⟩ := codec.drain_eq []

/-- What was drained goes on with the chunks still to come. -/
theorem foldl_takeIn (codec : FrameCodec) (chunks : List Bytes) : ∀ stream : Bytes,
    chunks.foldl codec.takeIn (codec.drain stream) = codec.drain (stream ++ chunks.flatten) := by
  induction chunks with
  | nil => intro stream; simp
  | cons chunk chunks ih =>
      intro stream
      rw [List.foldl_cons, ← drain_append, ih, List.flatten_cons, List.append_assoc]

/-! ### Frames that were encoded -/

/-- Adds frames to the bytes to be sent, one after the other. -/
def encodeAll (codec : FrameCodec) (frames : List Bytes) (buffer : Bytes) :
    Except TransportError Bytes :=
  frames.foldlM (fun sent frame => codec.encode frame sent) buffer

/-- A frame behind its length. -/
def delimited (frame : Bytes) : Bytes := Bytes.bigEndian lengthFieldBytes frame.length ++ frame

theorem encode_fitting (h : frame.length ≤ codec.maxFrame) (buffer : Bytes) :
    codec.encode frame buffer = .ok (buffer ++ delimited frame) := by
  rw [encode, if_neg (Nat.not_lt.mpr h), delimited, List.append_assoc]

theorem encodeAll_fitting (codec : FrameCodec) (frames : List Bytes) : ∀ buffer : Bytes,
    (∀ frame ∈ frames, frame.length ≤ codec.maxFrame) →
      codec.encodeAll frames buffer = .ok (buffer ++ frames.flatMap delimited) := by
  induction frames with
  | nil => intro buffer _; simp [encodeAll]; rfl
  | cons frame frames ih =>
      intro buffer h
      have hrest := ih (buffer ++ delimited frame) fun other hother => h other (by simp [hother])
      rw [encodeAll, List.foldlM_cons, encode_fitting (h frame (by simp))]
      rw [encodeAll] at hrest
      rw [List.flatMap_cons, ← List.append_assoc]
      exact hrest

theorem decode_delimited (hmax : codec.maxFrame < Bits.bound 32)
    (hframe : frame.length ≤ codec.maxFrame) (rest : Bytes) :
    codec.decode (delimited frame ++ rest) = (.ok (some frame), rest) := by
  have hfield : (Bytes.bigEndian lengthFieldBytes frame.length).length = lengthFieldBytes :=
    Bytes.length_bigEndian _ _
  have hlength : Bytes.toNat (Bytes.bigEndian lengthFieldBytes frame.length) = frame.length :=
    Bytes.toNat_bigEndian_of_lt (Nat.lt_of_le_of_lt hframe hmax)
  have hwhole : delimited frame ++ rest
      = Bytes.bigEndian lengthFieldBytes frame.length ++ (frame ++ rest) := by
    rw [delimited, List.append_assoc]
  have hlong : ¬ (delimited frame ++ rest).length < lengthFieldBytes := by
    rw [hwhole, List.length_append, hfield]
    omega
  have hcomplete : ¬ (frame ++ rest).length < frame.length := by
    rw [List.length_append]
    omega
  simp only [decode, if_neg hlong]
  simp only [hwhole, List.take_left' hfield, List.drop_left' hfield, hlength,
    if_neg (Nat.not_lt.mpr hframe), if_neg hcomplete, List.take_left, List.drop_left]

theorem drain_delimited (hmax : codec.maxFrame < Bits.bound 32) (frames : List Bytes)
    (h : ∀ frame ∈ frames, frame.length ≤ codec.maxFrame) :
    codec.drain (frames.flatMap delimited) = ⟨frames, none, []⟩ := by
  induction frames with
  | nil => exact drain_nil codec
  | cons frame frames ih =>
      rw [List.flatMap_cons, drain_frame (decode_delimited hmax (h frame (by simp)) _),
        ih fun other hother => h other (by simp [hother])]
      rfl

end FrameCodec

open FrameCodec in
/-- **Framing does not depend on chunking.**  However a stream is cut, taking in its chunks one
by one gives the frames, the first error and the bytes left that decoding the whole stream gives.
Decoding that gives no frame leaves the buffer as it was, and is refused for a length that is too
large only.  Frames that are not too large can all be encoded, and their stream decodes to exactly
these frames with nothing left over. -/
theorem frames_unchunked (codec : FrameCodec) (hmax : codec.maxFrame < Bits.bound 32) :
    (∀ chunks : List Bytes, codec.feed chunks = codec.drain chunks.flatten) ∧
    (∀ buffer rest : Bytes, codec.decode buffer = (.ok none, rest) → rest = buffer) ∧
    (∀ (buffer rest : Bytes) (cause : TransportError),
      codec.decode buffer = (.error cause, rest) → rest = buffer ∧
        ∃ length, codec.maxFrame < length ∧ cause = .frameTooLarge length codec.maxFrame) ∧
    ∀ frames : List Bytes, (∀ frame ∈ frames, frame.length ≤ codec.maxFrame) →
      ∃ stream, codec.encodeAll frames [] = .ok stream ∧
        codec.drain stream = ⟨frames, none, []⟩ := by
  refine ⟨fun chunks => ?_, fun buffer rest h => ?_, fun buffer rest cause h => ?_,
    fun frames hframes => ?_⟩
  · have hchunks := codec.foldl_takeIn chunks []
    rwa [drain_nil, List.nil_append] at hchunks
  · rcases codec.decodes buffer with hwaits | ⟨_, -, hrefused, -⟩ | ⟨_, _, -, hdone, -⟩
    · cases hwaits.symm.trans h
      rfl
    · cases hrefused.symm.trans h
    · cases hdone.symm.trans h
  · rcases codec.decodes buffer with hwaits | ⟨length, hlarge, hrefused, -⟩ | ⟨_, _, -, hdone, -⟩
    · cases hwaits.symm.trans h
    · cases hrefused.symm.trans h
      exact ⟨rfl, length, hlarge, rfl⟩
    · cases hdone.symm.trans h
  · have hencoded := codec.encodeAll_fitting frames [] hframes
    rw [List.nil_append] at hencoded
    exact ⟨_, hencoded, drain_delimited hmax frames hframes⟩

/-- Cuts inside a length, behind a body and inside the next length, an empty frame, and a length
that is too large before its body arrives. -/
theorem three_byte_frames_unchunked :
    3 < Bits.bound 32 ∧
      FrameCodec.feed ⟨3⟩ [[0, 0], [0, 1, 9], [0, 0, 0], [0, 0, 0, 0], [4, 7]]
        = ⟨[[9], []], some (.frameTooLarge 4 3), [0, 0, 0, 4, 7]⟩ ∧
      (∀ frame ∈ [[9], ([] : Bytes)], frame.length ≤ 3) ∧
      ∃ stream, FrameCodec.encodeAll ⟨3⟩ [[9], []] [] = .ok stream ∧
        FrameCodec.drain ⟨3⟩ stream = ⟨[[9], []], none, []⟩ := by
  obtain ⟨hfeed, -, -, hencode⟩ := frames_unchunked ⟨3⟩ (by decide)
  refine ⟨by decide, ?_, by decide, hencode _ (by decide)⟩
  rw [hfeed, FrameCodec.drain_eq]
  show FrameCodec.Intake.cons [9] (FrameCodec.drain ⟨3⟩ [0, 0, 0, 0, 0, 0, 0, 4, 7]) = _
  rw [FrameCodec.drain_eq]
  show FrameCodec.Intake.cons [9] (.cons [] (FrameCodec.drain ⟨3⟩ [0, 0, 0, 4, 7])) = _
  rw [FrameCodec.drain_eq]
  rfl

end PathWire
