/-
Which texts are identifiers.

An identifier is a namespace, a colon and a path, each of its own alphabet and neither empty.  No
namespace has a colon and no path has one, so a text is taken apart at its first colon in the only
way that could work, and what is put together from two parts is refused exactly if the text with a
colon between them is: a colon in the first part only moves the fault into the path.

On the wire an identifier is a text like any other.  Its length field is checked before its letters
are, so a text that is read but stands for no identifier can only be one of the wrong form, and the
lenient reader differs from the strict one for these texts alone.
-/
import PathWire.Proofs.Codec.Grammar
import PathWire.Proofs.Codec.Taken

namespace PathWire

namespace Identifier

/-! ### The form of an identifier -/

/-- One of `[a-z0-9_.-]`. -/
def NamespaceLetter (c : Char) : Prop :=
  ('a' ≤ c ∧ c ≤ 'z') ∨ ('0' ≤ c ∧ c ≤ '9') ∨ c = '_' ∨ c = '.' ∨ c = '-'

/-- One of `[a-z0-9_.-]`, or a slash. -/
def PathLetter (c : Char) : Prop := NamespaceLetter c ∨ c = '/'

/-- One or more letters of an alphabet. -/
def Word (letter : Char → Prop) (text : String) : Prop :=
  text ≠ "" ∧ ∀ c ∈ text.toList, letter c

/-- A text of the form `namespace:path`. -/
def Form (text : String) : Prop :=
  ∃ ns path, text = ns ++ ":" ++ path ∧ Word NamespaceLetter ns ∧ Word PathLetter path

theorem isNamespaceChar_iff {c : Char} : isNamespaceChar c = true ↔ NamespaceLetter c := by
  simp [isNamespaceChar, NamespaceLetter, or_assoc]

theorem isPathChar_iff {c : Char} : isPathChar c = true ↔ PathLetter c := by
  simp [isPathChar, PathLetter, isNamespaceChar_iff]

theorem isNamespace_iff {text : String} : isNamespace text = true ↔ Word NamespaceLetter text := by
  simp [isNamespace, Word, isNamespaceChar_iff]

theorem isPath_iff {text : String} : isPath text = true ↔ Word PathLetter text := by
  simp [isPath, Word, isPathChar_iff]

/-- Neither part has a colon. -/
theorem PathLetter.ne_colon {c : Char} (h : PathLetter c) : c ≠ ':' := by
  rintro rfl
  rcases h with h | h
  · exact ne_colon_of_isNamespaceChar (isNamespaceChar_iff.mpr h) rfl
  · exact absurd h (by decide)

/-- An identifier has the form that its written form says. -/
theorem form_display (id : Identifier) : Form id.display :=
  ⟨id.ns, id.path, rfl, isNamespace_iff.mp id.ns_valid, isPath_iff.mp id.path_valid⟩

/-! ### Putting together and taking apart -/

variable {ns path text : String}

theorem utf8ByteSize_joined (ns path : String) :
    (ns ++ ":" ++ path).utf8ByteSize = written ns path := by
  simp only [written, String.utf8ByteSize_append]
  rfl

theorem make_invalid (h : ¬ (isNamespace ns = true ∧ isPath path = true)) :
    make ns path = .error (.invalidIdentifier (ns ++ ":" ++ path)) := by
  unfold make
  rw [dif_neg h]

/-- A text is taken apart at its first colon. -/
theorem parse_joined (h : ':' ∉ ns.toList) : parse (ns ++ ":" ++ path) = make ns path := by
  have hlist : (ns ++ ":" ++ path).toList = ns.toList ++ ':' :: path.toList := by simp
  have hsplit : splitColon (ns ++ ":" ++ path).toList = some (ns.toList, path.toList) := by
    rw [hlist]
    exact splitColon_append (fun c hc hcolon => h (hcolon ▸ hc)) path.toList
  unfold parse
  simp only [hsplit, String.ofList_toList]

/-- **Two parts make an identifier as the text with a colon between them does**, or are refused for
the same reason. -/
theorem make_eq_parse (ns path : String) : make ns path = parse (ns ++ ":" ++ path) := by
  by_cases hcolon : ':' ∈ ns.toList
  · obtain ⟨before, after, hns, hbefore⟩ := List.eq_append_cons_of_mem hcolon
    have hparts : ns = String.ofList before ++ ":" ++ String.ofList after := by
      apply String.toList_injective
      simp [hns]
    have hrest : ns ++ ":" ++ path
        = String.ofList before ++ ":" ++ (String.ofList after ++ ":" ++ path) := by
      rw [hparts]
      simp only [String.append_assoc]
    have hfirst : ¬ (isNamespace ns = true ∧ isPath path = true) := by
      rintro ⟨hvalid, -⟩
      exact PathLetter.ne_colon (.inl ((isNamespace_iff.mp hvalid).2 _ hcolon)) rfl
    have hsecond : ¬ (isNamespace (String.ofList before) = true ∧
        isPath (String.ofList after ++ ":" ++ path) = true) := by
      rintro ⟨-, hvalid⟩
      exact ((isPath_iff.mp hvalid).2 ':' (by simp)).ne_colon rfl
    rw [make_invalid hfirst, hrest, parse_joined (by simpa using hbefore), make_invalid hsecond]
  · exact (parse_joined hcolon).symm

/-- **A text stands for an identifier exactly if it is short enough and has the form of one.** -/
theorem parse_ok_iff : (∃ id, parse text = .ok id) ↔
    text.utf8ByteSize ≤ maxIdentifierBytes ∧ Form text := by
  constructor
  · rintro ⟨id, hid⟩
    rw [← display_parse hid]
    exact ⟨utf8ByteSize_display_le id, form_display id⟩
  · rintro ⟨hsize, ns, path, rfl, hns, hpath⟩
    rw [utf8ByteSize_joined] at hsize
    exact ⟨_, parse_display ⟨ns, path, isNamespace_iff.mpr hns, isPath_iff.mpr hpath, hsize⟩⟩

/-- A short text that stands for no identifier is refused for its form. -/
theorem parse_short (h : text.utf8ByteSize ≤ maxIdentifierBytes) :
    (∃ id, parse text = .ok id) ∨ parse text = .error (.invalidIdentifier text) := by
  by_cases hcolon : ':' ∈ text.toList
  · obtain ⟨before, after, htext, hbefore⟩ := List.eq_append_cons_of_mem hcolon
    have hparts : text = String.ofList before ++ ":" ++ String.ofList after := by
      apply String.toList_injective
      simp [htext]
    by_cases hvalid : isNamespace (String.ofList before) = true ∧
        isPath (String.ofList after) = true
    · refine .inl (parse_ok_iff.mpr ⟨h, _, _, hparts, ?_⟩)
      exact ⟨isNamespace_iff.mp hvalid.1, isPath_iff.mp hvalid.2⟩
    · refine .inr ?_
      rw [hparts, parse_joined (by simpa using hbefore), make_invalid hvalid]
  · have hnone : splitColon text.toList = none := by
      rw [Option.eq_none_iff_forall_ne_some]
      intro parts hparts
      rw [splitColon_eq hparts] at hcolon
      exact hcolon (by simp)
    refine .inr ?_
    unfold parse
    simp only [hnone]

end Identifier

/-! ### The two readers -/

/-- A text was read that stands for no identifier. -/
def CodecError.IsUnnamed (cause : CodecError) : Prop := ∃ text, cause = .invalidIdentifier text

namespace Reader

open Step (Safe)

/-- A read that gives what has `post`, and never complains about an identifier. -/
abbrev Sober {α : Type} (read : Reader α) (post : α → Prop) : Prop :=
  Safe (fun _ => True) (fun cause => ¬ cause.IsUnnamed) read post

theorem sober_expect (op : Op) : Sober (expect op) fun _ => True := by
  refine Safe.look.bind fun dec _ => ?_
  cases dec.check with
  | none => exact .pure trivial
  | some check =>
      cases hwritten : check.log[check.cursor]? with
      | none =>
          simp only [hwritten]
          exact .refuse (by rintro ⟨text, ⟨⟩⟩)
      | some written =>
          by_cases hsame : written = op
          · simp only [hwritten, if_pos hsame]
            intro before _
            exact ⟨trivial, trivial⟩
          · simp only [hwritten, if_neg hsame]
            exact .refuse (by rintro ⟨text, ⟨⟩⟩)

theorem sober_length : Sober (onBytes Varint.getU32) fun _ => True := by
  intro dec _
  unfold onBytes
  cases hlength : Varint.getU32 dec.rest with
  | ok length rest => exact ⟨trivial, trivial⟩
  | error cause rest =>
      refine ⟨trivial, ?_⟩
      rintro ⟨text, rfl⟩
      rcases Varint.Format.exact_u32.fails _ _ _ hlength with hcause | hcause | hcause <;>
        cases hcause

theorem sober_take (count : Nat) : Sober (take count) fun data => data.length = count := by
  intro dec _
  by_cases hroom : count ≤ dec.remaining
  · have htake : take count dec
        = .ok (dec.rest.take count) { dec with rest := dec.rest.drop count } :=
      Step.bind_ok (ensure_ok hroom)
    rw [htake]
    exact ⟨trivial, List.length_take_of_le hroom⟩
  · have htake : take count dec = .error (.unexpectedEof count dec.remaining) dec :=
      Step.bind_error (ensure_short (Nat.lt_of_not_le hroom))
    rw [htake]
    exact ⟨trivial, by rintro ⟨text, ⟨⟩⟩⟩

theorem sober_counted (limit : Nat) :
    Sober (counted limit .stringTooLong) fun data => data.length ≤ limit := by
  have halign : Sober align fun _ => True := fun _ _ => ⟨trivial, trivial⟩
  refine halign.bind fun _ _ => sober_length.bind fun length _ => ?_
  by_cases hlong : limit < length.toNat
  · simp only [if_pos hlong]
    have hrefused : Sober (throw (.stringTooLong length.toNat limit) : Reader Unit)
        fun _ => False := .refuse (by rintro ⟨text, ⟨⟩⟩)
    exact hrefused.bind nofun
  · simp only [if_neg hlong]
    exact (sober_take _).imp fun data hdata => hdata.trans_le (Nat.le_of_not_lt hlong)

/-- A text that is read keeps to the limit, in bytes. -/
theorem sober_text (limit : Nat) :
    Sober (text limit) fun content => content.utf8ByteSize ≤ limit := by
  refine (sober_counted limit).bind fun data hdata => ?_
  cases hdecode : Utf8.decode data with
  | error fault => exact .refuse (by rintro ⟨text, ⟨⟩⟩)
  | ok content =>
      refine .pure ?_
      rw [← Bytes.length_ofString, Utf8.ofString_decode hdecode]
      exact hdata

/-- What both readers do before they look at the letters. -/
def name : Reader String := do
  expect .identifier
  text maxIdentifierBytes

theorem sober_name : Sober name fun content => content.utf8ByteSize ≤ maxIdentifierBytes :=
  (sober_expect .identifier).bind fun _ _ => sober_text maxIdentifierBytes

/-- What the strict reader makes of a text. -/
def named (content : String) : Reader Identifier :=
  match Identifier.parse content with
  | .ok id => return id
  | .error cause => throw cause

theorem identifier_eq : identifier = name >>= named := by
  unfold identifier name
  rw [bind_assoc]
  rfl

theorem identifier?_eq :
    identifier? = (do return (Identifier.parse (← name)).toOption) := by
  unfold identifier? name
  rw [bind_assoc]

/-- **Both readers find an identifier, or one finds that there is none, or both find the same
fault.** -/
theorem identifier_cases (dec : Decoder) :
    (∃ id after, identifier dec = .ok id after ∧ identifier? dec = .ok (some id) after) ∨
    (∃ text after, identifier dec = .error (.invalidIdentifier text) after ∧
      identifier? dec = .ok none after) ∨
    ∃ cause after, ¬ cause.IsUnnamed ∧ identifier dec = .error cause after ∧
      identifier? dec = .error cause after := by
  rw [identifier_eq, identifier?_eq]
  cases hname : name dec with
  | error cause after =>
      obtain ⟨-, hsober⟩ := sober_name.error trivial hname
      exact .inr (.inr ⟨cause, after, hsober, Step.bind_error hname, Step.bind_error hname⟩)
  | ok content after =>
      obtain ⟨-, hsize⟩ := sober_name.ok trivial hname
      rw [Step.bind_ok hname, Step.bind_ok hname, named]
      rcases Identifier.parse_short hsize with ⟨id, hid⟩ | hnone
      · rw [hid]
        exact .inl ⟨id, after, rfl, rfl⟩
      · rw [hnone]
        exact .inr (.inl ⟨content, after, rfl, rfl⟩)

/-- What the lenient reader makes of a decoder, told by what the strict one makes of it.  Both leave
the same bytes unread. -/
structure Lenient (dec : Decoder) : Prop where
  found : ∀ id after, identifier? dec = .ok (some id) after ↔ identifier dec = .ok id after
  unnamed : ∀ after, identifier? dec = .ok none after ↔
    ∃ text, identifier dec = .error (.invalidIdentifier text) after
  broken : ∀ cause after, identifier? dec = .error cause after ↔
    identifier dec = .error cause after ∧ ∀ text, cause ≠ .invalidIdentifier text

theorem lenient (dec : Decoder) : Lenient dec := by
  rcases identifier_cases dec with ⟨id, after, hstrict, hlenient⟩ |
    ⟨text, after, hstrict, hlenient⟩ | ⟨cause, after, hsober, hstrict, hlenient⟩
  · constructor <;> simp [hstrict, hlenient]
  · constructor <;> simp [hstrict, hlenient]
  · have hcause : ∀ text, cause ≠ .invalidIdentifier text := fun text h => hsober ⟨text, h⟩
    constructor <;> simp [hstrict, hlenient, hcause]

end Reader

/-- **Identifiers are exact.**  A text stands for one if and only if it is short enough and has the
form of one, and the identifier is written as this text again.  Two parts make an identifier as the
text with a colon between them does, or are refused for the same reason.  What is written is read
back, and the two readers agree on every decoder but for texts that stand for no identifier. -/
theorem identifiers_exact :
    (∀ text, (∃ id, Identifier.parse text = .ok id) ↔
      text.utf8ByteSize ≤ maxIdentifierBytes ∧ Identifier.Form text) ∧
    (∀ text id, Identifier.parse text = .ok id → id.display = text) ∧
    (∀ ns path, Identifier.make ns path = Identifier.parse (ns ++ ":" ++ path)) ∧
    (∀ id : Identifier, Identifier.parse id.display = .ok id) ∧
    ∀ dec, Reader.Lenient dec :=
  ⟨fun _ => Identifier.parse_ok_iff, fun _ _ => Identifier.display_parse, Identifier.make_eq_parse,
    Identifier.parse_display, Reader.lenient⟩

/-! A colon in the namespace is a fault of the path. -/

example : Identifier.make "a:b" "c" = .error (.invalidIdentifier "a:b:c") ∧
    Identifier.parse "a:b:c" = .error (.invalidIdentifier "a:b:c") := by decide

end PathWire
