/-
A checking codec watches and does not interfere.

A checking encoder writes what a plain one does and keeps a list of the kinds it has written.  A
checking decoder compares each read with the entry at its cursor.  If they agree, the cursor moves
on and the bytes are read as if there were no log; if not, the read is refused and nothing moves.
So at any time its place in the bytes is that of a plain decoder that was only asked for the reads
that passed, and its cursor is the number of these.  That a read passes says nothing about how it
ends: one that passes and then fails for what the bytes are has moved both.

The log is looked at once in a read, before the bytes (`Proofs/Codec/Parts.lean`).  What comes
behind that does the same with any log, and with none.  A value of an enumeration is looked up once
its ordinal is read, so what is said of the ordinal holds of the value.
-/
import PathWire.Proofs.Codec.Parts
import PathWire.Proofs.Codec.RoundTrip

namespace PathWire

/-! ### Writing -/

/-- The kind of field a write makes. -/
def FieldWrite.op : FieldWrite → Op
  | .bool _ => .bool
  | .bits _ width => .bits width
  | .enum _ count => .enum count
  | .u8 _ => .u8
  | .u16 _ => .u16
  | .u32 _ => .u32
  | .u64 _ => .u64
  | .f32 _ => .f32
  | .f64 _ => .f64
  | .varI32 _ => .varI32
  | .varI64 _ => .varI64
  | .varU32 _ => .varU32
  | .varU64 _ => .varU64
  | .block _ => .byteBlock
  | .str _ _ => .str
  | .ident _ => .identifier

namespace Encoder

/-- The same encoder with another log, or none. -/
def relog (enc : Encoder) (log : Option OpLog) : Encoder := { enc with log }

theorem relog_pushBit (enc : Encoder) (log : Option OpLog) (bit : Bool) :
    (enc.relog log).pushBit bit = (enc.pushBit bit).relog log := by
  by_cases hroom : (enc.rolling ++ [bit]).length < 8
  · simp only [pushBit, relog, hroom, if_true]
  · simp only [pushBit, relog, hroom, if_false]

theorem relog_pushBits (bits : List Bool) : ∀ (enc : Encoder) (log : Option OpLog),
    (enc.relog log).pushBits bits = (enc.pushBits bits).relog log := by
  induction bits with
  | nil => exact fun enc log => rfl
  | cons bit rest ih =>
      intro enc log
      show ((enc.relog log).pushBit bit).pushBits rest = ((enc.pushBit bit).pushBits rest).relog log
      rw [relog_pushBit, ih]

/-- Bits behind a record: the log takes the kind, and the bits go where they would without it. -/
theorem relog_record_pushBits (enc : Encoder) (log : Option OpLog) (op : Op) (bits : List Bool) :
    ((enc.relog log).record op).pushBits bits
      = ((enc.record op).pushBits bits).relog (log.map (·.push op)) := by
  have hrecord : (enc.relog log).record op = (enc.record op).relog (log.map (·.push op)) := rfl
  rw [hrecord, relog_pushBits]

/-- **A write does the same with any log, and adds its kind to it if it is accepted.** -/
theorem write_relog (enc : Encoder) (log : Option OpLog) (field : FieldWrite) :
    (enc.relog log).write field
      = (enc.write field).map fun after => after.relog (log.map (·.push field.op)) := by
  cases field with
  | bool value =>
      show Except.ok (((enc.relog log).record .bool).pushBits [value]) = _
      rw [relog_record_pushBits]
      rfl
  | bits value width =>
      simp only [write, writeBits]
      by_cases hwidth : isBitCount width = true
      · by_cases hvalue : value < Bits.bound width
        · simp only [hwidth, if_pos hvalue, relog_record_pushBits]
          rfl
        · simp only [hwidth, if_neg hvalue]
          rfl
      · simp only [hwidth]
        rfl
  | enum ordinal count =>
      simp only [write, writeEnum]
      cases enumBitWidth count with
      | error cause => rfl
      | ok width =>
          by_cases hordinal : ordinal < count
          · simp only [if_pos hordinal, relog_record_pushBits]
            rfl
          · simp only [if_neg hordinal]
            rfl
  | block data =>
      simp only [write, writeByteBlock]
      by_cases hlength : data.length ≤ maxLengthField
      · simp only [if_pos hlength]
        rfl
      · simp only [if_neg hlength]
        rfl
  | str text limit =>
      simp only [write, writeStr]
      by_cases hlength : (Bytes.ofString text).length ≤ maxLengthField ∧
          (Bytes.ofString text).length ≤ limit
      · simp only [if_pos hlength]
        rfl
      · simp only [if_neg hlength]
        rfl
  | _ => rfl

/-- What each of some writes answers, made one after the other. -/
def answers (enc : Encoder) : List FieldWrite → List (Except CodecError Unit)
  | [] => []
  | field :: rest =>
    (enc.write field).map (fun _ => ()) :: ((enc.write field).toOption.getD enc).answers rest

/-- A log with the kinds of some fields behind it. -/
def noted (log : OpLog) (fields : List FieldWrite) : OpLog :=
  log ++ (fields.map FieldWrite.op).toArray

/-- A checking encoder goes along with the plain one. -/
theorem writeAll_relog (fields : List FieldWrite) : ∀ (enc : Encoder) (log : OpLog),
    (enc.relog (some log)).answers fields = enc.answers fields ∧
      (enc.relog (some log)).writeAll fields
        = (enc.writeAll fields).relog (some (noted log (enc.accepted fields))) := by
  induction fields with
  | nil => exact fun enc log => ⟨rfl, by simp [writeAll, noted, accepted]⟩
  | cons field rest ih =>
      intro enc log
      have hsame := enc.write_relog (some log) field
      cases hwrite : enc.write field with
      | error cause =>
          rw [hwrite] at hsame
          have hchecked : (enc.relog (some log)).write field = .error cause := hsame
          obtain ⟨hanswers, hend⟩ := ih enc log
          refine ⟨?_, ?_⟩
          · simp only [answers, hwrite, hchecked]
            exact congrArg _ hanswers
          · rw [writeAll_cons_error rest hchecked, hend, writeAll_cons_error rest hwrite,
              accepted_cons_error rest hwrite]
      | ok after =>
          rw [hwrite] at hsame
          have hchecked : (enc.relog (some log)).write field
              = .ok (after.relog (some (log.push field.op))) := hsame
          obtain ⟨hanswers, hend⟩ := ih after (log.push field.op)
          refine ⟨?_, ?_⟩
          · simp only [answers, hwrite, hchecked]
            exact congrArg _ hanswers
          · rw [writeAll_cons_ok rest hchecked, hend, writeAll_cons_ok rest hwrite,
              accepted_cons_ok rest hwrite]
            simp [noted]

/-- A checking encoder and a plain one after the same writes. -/
structure Watched (writes : List FieldWrite) : Prop where
  answers : checking.answers writes = empty.answers writes
  bytes : (checking.writeAll writes).bytes = (empty.writeAll writes).bytes
  /-- The log lists the kinds of the accepted writes. -/
  log : (checking.writeAll writes).opLog.toList = (empty.accepted writes).map FieldWrite.op

theorem watched (writes : List FieldWrite) : Watched writes := by
  obtain ⟨hanswers, hend⟩ := writeAll_relog writes empty #[]
  have hchecking : checking.writeAll writes
      = (empty.writeAll writes).relog (some (noted #[] (empty.accepted writes))) := hend
  refine ⟨hanswers, ?_, ?_⟩
  · rw [hchecking]
    rfl
  · rw [hchecking]
    simp [relog, opLog, noted]

end Encoder

/-! ### Behind the check -/

namespace Step

variable {ε σ α β : Type}

/-- A step's result with its state changed. -/
def onState (change : σ → σ) : EStateM.Result ε σ α → EStateM.Result ε σ α
  | .ok answer after => .ok answer (change after)
  | .error cause after => .error cause (change after)

/-- A step that takes no notice of a change of its state, and leaves it. -/
def Heedless (change : σ → σ) (step : EStateM ε σ α) : Prop :=
  ∀ state, step (change state) = onState change (step state)

/-- What is put together from such steps is one. -/
theorem Chain.heedless {basic : ∀ α : Type, EStateM ε σ α → Prop} {own : ε → Prop}
    {change : σ → σ}
    (hbasic : ∀ {α : Type} {step : EStateM ε σ α}, basic α step → Heedless change step)
    {step : EStateM ε σ α} (h : Chain basic own step) : Heedless change step := by
  induction h with
  | basic h => exact hbasic h
  | pure answer => exact fun state => rfl
  | refuse _ => exact fun state => rfl
  | @bind α β step next _ _ hstep hnext =>
      intro state
      have hfirst := hstep state
      cases hresult : step state with
      | ok answer after =>
          rw [hresult] at hfirst
          rw [bind_ok hfirst, bind_ok hresult]
          exact hnext answer after
      | error cause after =>
          rw [hresult] at hfirst
          rw [bind_error hfirst, bind_error hresult]
          rfl

end Step

/-- The same decoder with another log, or none. -/
def Decoder.recheck (check : Option Checker) (dec : Decoder) : Decoder := { dec with check }

namespace Reader

variable {check : Option Checker}

theorem Part.heedless {α : Type} {step : Reader α} (h : Part α step) :
    Step.Heedless (Decoder.recheck check) step := by
  intro dec
  obtain ⟨rest, rolling, old⟩ := dec
  cases h with
  | align => rfl
  | pullBit =>
      cases rolling with
      | cons bit others => rfl
      | nil =>
          cases rest with
          | nil => rfl
          | cons byte others => rfl
  | take count =>
      by_cases hroom : count ≤ rest.length
      · have hensure : ∀ check, ensure count ⟨rest, rolling, check⟩
            = .ok () ⟨rest, rolling, check⟩ :=
          fun check => ensure_ok hroom
        rw [Reader.take, Step.bind_ok (hensure old)]
        exact Step.bind_ok (hensure check)
      · have hensure : ∀ check, ensure count ⟨rest, rolling, check⟩
            = .error (.unexpectedEof count rest.length) ⟨rest, rolling, check⟩ :=
          fun check => ensure_short (Nat.lt_of_not_le hroom)
        rw [Reader.take, Step.bind_error (hensure old)]
        exact Step.bind_error (hensure check)
  | @onBytes _ step h =>
      simp only [Reader.onBytes, Decoder.recheck]
      cases step rest with
      | ok value left => rfl
      | error cause left => rfl

/-! ### The check itself -/

variable {log : OpLog} {cursor : Nat} {op written : Op} {rest : Bytes} {rolling : List Bool}

theorem expect_agrees (h : log[cursor]? = some op) :
    expect op ⟨rest, rolling, some ⟨log, cursor⟩⟩
      = .ok () ⟨rest, rolling, some ⟨log, cursor + 1⟩⟩ := by
  simp only [expect, bind, EStateM.bind, get, getThe, MonadStateOf.get, EStateM.get, h, if_true]
  rfl

theorem expect_differs (h : log[cursor]? = some written) (hne : written ≠ op) :
    expect op ⟨rest, rolling, some ⟨log, cursor⟩⟩
      = .error (.mismatch cursor written op) ⟨rest, rolling, some ⟨log, cursor⟩⟩ := by
  simp only [expect, bind, EStateM.bind, get, getThe, MonadStateOf.get, EStateM.get, h, if_neg hne]
  rfl

theorem expect_exhausted (h : log[cursor]? = none) :
    expect op ⟨rest, rolling, some ⟨log, cursor⟩⟩
      = .error (.exhausted cursor op) ⟨rest, rolling, some ⟨log, cursor⟩⟩ := by
  simp only [expect, bind, EStateM.bind, get, getThe, MonadStateOf.get, EStateM.get, h]
  rfl

end Reader

/-! ### One read -/

namespace Decoder

/-- What a read answers, and the decoder behind it. -/
def perform (dec : Decoder) (read : FieldRead) : Except CodecError FieldValue × Decoder :=
  match Reader.field read dec with
  | .ok value after => (.ok value, after)
  | .error cause after => (.error cause, after)

/-- The same place in the same bytes, for a decoder that follows a log from `cursor` on. -/
def following (dec : Decoder) (log : OpLog) (cursor : Nat) : Decoder :=
  dec.recheck (some ⟨log, cursor⟩)

variable {dec : Decoder} {read : FieldRead} {log : OpLog} {cursor : Nat} {op written : Op}

theorem perform_of_error {after : Decoder} {cause : CodecError}
    (h : Reader.field read dec = .error cause after) :
    dec.perform read = (.error cause, after) := by
  rw [perform, h]

/-- A read that passes the check is read as without a log. -/
theorem perform_agrees (hplain : dec.check = none) (hop : read.op? = some op)
    (h : log[cursor]? = some op) :
    (dec.following log cursor).perform read
      = ((dec.perform read).1, (dec.perform read).2.following log (cursor + 1)) := by
  obtain ⟨body, hbody, hread⟩ := Reader.guarded_field hop
  obtain ⟨rest, rolling, _⟩ := dec
  subst hplain
  have hchecked : Reader.field read (following ⟨rest, rolling, none⟩ log cursor)
      = body (following ⟨rest, rolling, none⟩ log (cursor + 1)) := by
    rw [hread]
    exact Step.bind_ok (Reader.expect_agrees h)
  have hfree : Reader.field read ⟨rest, rolling, none⟩ = body ⟨rest, rolling, none⟩ := by
    rw [hread]
    rfl
  have hsame : body (following ⟨rest, rolling, none⟩ log (cursor + 1))
      = Step.onState _ (body ⟨rest, rolling, none⟩) :=
    hbody.heedless Reader.Part.heedless _
  simp only [perform, hchecked, hfree, hsame]
  cases body ⟨rest, rolling, none⟩ with
  | ok value after => rfl
  | error cause after => rfl

/-- A plain decoder stays one. -/
theorem check_perform (hplain : dec.check = none) : (dec.perform read).2.check = none := by
  cases hop : read.op? with
  | none =>
      obtain ⟨cause, -, hread⟩ := Reader.field_misused hop
      rw [perform, hread]
      exact hplain
  | some op =>
      obtain ⟨body, hbody, hread⟩ := Reader.guarded_field hop
      obtain ⟨rest, rolling, _⟩ := dec
      subst hplain
      have hfree : Reader.field read ⟨rest, rolling, none⟩ = body ⟨rest, rolling, none⟩ := by
        rw [hread]
        rfl
      have hsame : body ⟨rest, rolling, none⟩
          = Step.onState (recheck none) (body ⟨rest, rolling, none⟩) :=
        hbody.heedless Reader.Part.heedless ⟨rest, rolling, none⟩
      rw [perform, hfree, hsame]
      cases body ⟨rest, rolling, none⟩ with
      | ok value after => rfl
      | error cause after => rfl

/-- A read refused by the check. -/
theorem perform_of_expect_error {cause : CodecError} (hop : read.op? = some op)
    (h : Reader.expect op dec = .error cause dec) : dec.perform read = (.error cause, dec) := by
  obtain ⟨body, -, hread⟩ := Reader.guarded_field hop
  refine perform_of_error ?_
  rw [hread]
  exact Step.bind_error h

theorem perform_differs (hop : read.op? = some op) (h : log[cursor]? = some written)
    (hne : written ≠ op) : (dec.following log cursor).perform read
      = (.error (.mismatch cursor written op), dec.following log cursor) :=
  perform_of_expect_error hop (Reader.expect_differs h hne)

theorem perform_exhausted (hop : read.op? = some op) (h : log[cursor]? = none) :
    (dec.following log cursor).perform read
      = (.error (.exhausted cursor op), dec.following log cursor) :=
  perform_of_expect_error hop (Reader.expect_exhausted h)

/-- A read without a kind is refused before the check, by any decoder. -/
theorem perform_misused (h : read.op? = none) :
    ∃ cause : CodecError, cause.kind = .misuse ∧ ∀ dec : Decoder,
      dec.perform read = (.error cause, dec) := by
  obtain ⟨cause, hkind, hread⟩ := Reader.field_misused h
  exact ⟨cause, hkind, fun dec => perform_of_error (hread dec)⟩

end Decoder

/-! ### Sequences of reads -/

/-- Whether a read asks for the kind of field that a log has at a place. -/
def OpLog.permits (log : OpLog) (place : Nat) (read : FieldRead) : Bool :=
  read.op?.isSome && log[place]? == read.op?

/-- The reads of a sequence that pass the check: each is compared with the entry behind those of
the reads that passed before it. -/
def OpLog.passed (log : OpLog) (reads : List FieldRead) : List FieldRead :=
  reads.foldl (fun passed read =>
    if log.permits passed.length read then passed ++ [read] else passed) []

namespace OpLog

variable {log : OpLog} {place : Nat} {reads : List FieldRead} {read : FieldRead}

theorem permits_iff : log.permits place read = true ↔
    ∃ op, read.op? = some op ∧ log[place]? = some op := by
  simp only [permits, Bool.and_eq_true, Option.isSome_iff_exists, beq_iff_eq]
  constructor
  · rintro ⟨⟨op, hop⟩, hentry⟩
    exact ⟨op, hop, hentry.trans hop⟩
  · rintro ⟨op, hop, hentry⟩
    exact ⟨⟨op, hop⟩, hentry.trans hop.symm⟩

theorem passed_append (log : OpLog) (reads : List FieldRead) (read : FieldRead) :
    log.passed (reads ++ [read]) = if log.permits (log.passed reads).length read then
      log.passed reads ++ [read] else log.passed reads := by
  rw [passed, List.foldl_append]
  rfl

/-- No more reads pass than the log has entries. -/
theorem length_passed_le (log : OpLog) (reads : List FieldRead) :
    (log.passed reads).length ≤ log.size := by
  induction reads using List.reverseRecOn with
  | nil => exact Nat.zero_le _
  | append_singleton reads read ih =>
      rw [passed_append]
      by_cases hpermits : log.permits (log.passed reads).length read = true
      · rw [if_pos hpermits, List.length_append]
        obtain ⟨op, -, hentry⟩ := permits_iff.mp hpermits
        exact (Array.getElem?_eq_some_iff.mp hentry).1
      · rwa [if_neg hpermits]

end OpLog

namespace Decoder

/-- The decoder behind some reads, made one after the other whatever becomes of them. -/
def performAll (dec : Decoder) (reads : List FieldRead) : Decoder :=
  reads.foldl (fun dec read => (dec.perform read).2) dec

/-- What each of some reads answers, made one after the other. -/
def answers (dec : Decoder) : List FieldRead → List (Except CodecError FieldValue)
  | [] => []
  | read :: rest => (dec.perform read).1 :: (dec.perform read).2.answers rest

theorem performAll_append (dec : Decoder) (reads : List FieldRead) (read : FieldRead) :
    dec.performAll (reads ++ [read]) = ((dec.performAll reads).perform read).2 := by
  simp only [performAll, List.foldl_append, List.foldl_cons, List.foldl_nil]

theorem answers_append (reads : List FieldRead) (read : FieldRead) : ∀ dec : Decoder,
    dec.answers (reads ++ [read])
      = dec.answers reads ++ [((dec.performAll reads).perform read).1] := by
  induction reads with
  | nil => exact fun dec => rfl
  | cons first rest ih =>
      intro dec
      exact congrArg _ (ih (dec.perform first).2)

/-- A checking decoder goes along with a plain one that makes the reads that pass. -/
theorem performAll_checking (bytes : Bytes) (log : OpLog) (reads : List FieldRead) :
    ((ofBytes bytes).performAll (log.passed reads)).check = none ∧
      (checking bytes log).performAll reads = ((ofBytes bytes).performAll
        (log.passed reads)).following log (log.passed reads).length := by
  induction reads using List.reverseRecOn with
  | nil => exact ⟨rfl, rfl⟩
  | append_singleton reads read ih =>
      obtain ⟨hplain, hplace⟩ := ih
      rw [performAll_append, hplace, OpLog.passed_append]
      by_cases hpermits : log.permits (log.passed reads).length read = true
      · obtain ⟨op, hop, hentry⟩ := OpLog.permits_iff.mp hpermits
        rw [if_pos hpermits, performAll_append, perform_agrees hplain hop hentry,
          List.length_append]
        exact ⟨check_perform hplain, rfl⟩
      · rw [if_neg hpermits]
        refine ⟨hplain, ?_⟩
        cases hop : read.op? with
        | none =>
            obtain ⟨cause, -, hrefused⟩ := perform_misused hop
            rw [hrefused]
        | some op =>
            cases hentry : log[(log.passed reads).length]? with
            | none => rw [perform_exhausted hop hentry]
            | some written =>
                have hne : written ≠ op := by
                  rintro rfl
                  exact hpermits (OpLog.permits_iff.mpr ⟨written, hop, hentry⟩)
                rw [perform_differs hop hentry hne]

/-- As long as the reads agree with the log, all of them pass and are answered as by a plain
decoder. -/
theorem answers_checking (bytes : Bytes) (log : OpLog) (reads : List FieldRead)
    (h : ∀ place read, reads[place]? = some read → log.permits place read = true) :
    log.passed reads = reads ∧
      (checking bytes log).answers reads = (ofBytes bytes).answers reads := by
  induction reads using List.reverseRecOn with
  | nil => exact ⟨rfl, rfl⟩
  | append_singleton reads read ih =>
      have hearlier : ∀ place read, reads[place]? = some read → log.permits place read = true := by
        intro place earlier hread
        refine h place earlier ?_
        rw [List.getElem?_append_left (List.getElem?_eq_some_iff.mp hread).1]
        exact hread
      have hlast : log.permits reads.length read = true := h _ _ (by simp)
      obtain ⟨hpassed, hanswers⟩ := ih hearlier
      obtain ⟨hplain, hplace⟩ := performAll_checking bytes log reads
      rw [hpassed] at hplain hplace
      refine ⟨by rw [OpLog.passed_append, hpassed, if_pos hlast], ?_⟩
      obtain ⟨op, hop, hentry⟩ := OpLog.permits_iff.mp hlast
      rw [answers_append, answers_append, hanswers, hplace, perform_agrees hplain hop hentry]

/-- What a decoder that checks `reads` against `log` has done, and what it does next. -/
structure Watched (bytes : Bytes) (log : OpLog) (reads : List FieldRead) : Prop where
  /-- While the reads agree with the log, they are answered as by a plain decoder, and both are at
  the same place. -/
  agreeing : (∀ place read, reads[place]? = some read → log.permits place read = true) →
    (checking bytes log).answers reads = (ofBytes bytes).answers reads ∧
      (checking bytes log).performAll reads
        = ((ofBytes bytes).performAll reads).following log reads.length
  /-- In any case its place is that of a plain decoder after the reads that passed, and its cursor
  is their number. -/
  place : (checking bytes log).performAll reads
    = ((ofBytes bytes).performAll (log.passed reads)).following log (log.passed reads).length
  /-- From there a read that agrees is read as by the plain decoder. -/
  agrees : ∀ read op, read.op? = some op → log[(log.passed reads).length]? = some op →
    let plain := ((ofBytes bytes).performAll (log.passed reads)).perform read
    ((checking bytes log).performAll reads).perform read
      = (plain.1, plain.2.following log ((log.passed reads).length + 1))
  /-- One that differs is refused, and nothing moves. -/
  differs : ∀ read op written, read.op? = some op →
    log[(log.passed reads).length]? = some written → written ≠ op →
      let dec := (checking bytes log).performAll reads
      dec.perform read = (.error (.mismatch (log.passed reads).length written op), dec)
  /-- So is one past the end of the log. -/
  exhausted : ∀ read op, read.op? = some op → log[(log.passed reads).length]? = none →
    let dec := (checking bytes log).performAll reads
    dec.perform read = (.error (.exhausted (log.passed reads).length op), dec)
  /-- A read that no field could answer is refused before the check, by any decoder. -/
  misused : ∀ read, read.op? = none → ∃ cause : CodecError, cause.kind = .misuse ∧
    ∀ dec : Decoder, dec.perform read = (.error cause, dec)
  finished : ((checking bytes log).performAll reads).finishChecked = .ok () ↔
    (log.passed reads).length = log.size
  unfinished : (log.passed reads).length ≠ log.size →
    ((checking bytes log).performAll reads).finishChecked
      = .error (.unconsumed (log.passed reads).length (log.size - (log.passed reads).length))

theorem watched (bytes : Bytes) (log : OpLog) (reads : List FieldRead) :
    Watched bytes log reads := by
  obtain ⟨hplain, hplace⟩ := performAll_checking bytes log reads
  have hle := log.length_passed_le reads
  have hfinish : ((checking bytes log).performAll reads).finishChecked
      = if (log.passed reads).length < log.size then
          .error (.unconsumed (log.passed reads).length (log.size - (log.passed reads).length))
        else .ok () := by
    rw [hplace]
    rfl
  refine ⟨fun h => ?_, hplace, ?_, ?_, ?_, fun read hop => perform_misused hop, ?_, fun hne => ?_⟩
  · obtain ⟨hpassed, hanswers⟩ := answers_checking bytes log reads h
    rw [hpassed] at hplace
    exact ⟨hanswers, hplace⟩
  · intro read op hop hentry
    rw [hplace]
    exact perform_agrees hplain hop hentry
  · intro read op written hop hentry hne
    rw [hplace]
    exact perform_differs hop hentry hne
  · intro read op hop hentry
    rw [hplace]
    exact perform_exhausted hop hentry
  · rw [hfinish]
    by_cases hshort : (log.passed reads).length < log.size
    · rw [if_pos hshort]
      exact ⟨nofun, fun h => absurd h (Nat.ne_of_lt hshort)⟩
    · rw [if_neg hshort]
      exact ⟨fun _ => by omega, fun _ => rfl⟩
  · rw [hfinish, if_pos (by omega)]

end Decoder

/-- **A checking codec watches and does not interfere.**  Whatever is written, a checking encoder
answers as a plain one, writes the same bytes and lists the kinds of the accepted writes.  Whatever
the bytes, the log and the reads, a checking decoder does what a plain one does for the reads that
agree with the log, refuses the others without moving, and is done once it has seen the whole
log. -/
theorem checking_watches :
    (∀ writes, Encoder.Watched writes) ∧ ∀ bytes log reads, Decoder.Watched bytes log reads :=
  ⟨Encoder.watched, Decoder.watched⟩

/-- A read of the wrong kind is refused and two entries are left, and the right one goes on where
the first read stopped. -/
theorem second_read_refused :
    let dec := (Decoder.checking [1, 7, 0, 9] #[.u8, .varU32, .u16]).performAll [.u8]
    dec.perform .u16 = (.error (.mismatch 1 .varU32 .u16), dec) ∧
      dec.finishChecked = .error (.unconsumed 1 2) ∧
      (dec.perform .varU32).1 = .ok (.varU32 7) := by
  intro dec
  have hwatched := checking_watches.2 [1, 7, 0, 9] #[.u8, .varU32, .u16] [.u8]
  refine ⟨hwatched.differs .u16 .u16 .varU32 rfl rfl (by decide), hwatched.unfinished (by decide),
    ?_⟩
  have hagrees := hwatched.agrees .varU32 .varU32 rfl rfl
  rw [hagrees]
  rfl

end PathWire
