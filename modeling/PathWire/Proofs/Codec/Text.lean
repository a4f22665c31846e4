/-
Texts and identifiers read back from their bytes.

A text's bytes are well-formed UTF-8 by construction, so decoding them gives the text.  An
identifier's namespace holds no colon, so cutting its written form at the first colon gives
its two parts, and these satisfy what `make` checks because they did so before.
-/
import PathWire.Proofs.Bytes
import PathWire.Text.Utf8
import PathWire.Codec.Identifier

namespace PathWire

theorem Bytes.length_ofString (text : String) : (ofString text).length = text.utf8ByteSize := by
  rw [ofString, Array.length_toList]
  exact String.size_toByteArray

theorem Utf8.decode_ofString (text : String) : decode (Bytes.ofString text) = .ok text := by
  have hraw : ByteArray.mk (Bytes.ofString text).toArray = text.toByteArray := by
    rw [Bytes.ofString, Array.toArray_toList]
  unfold decode
  simp only [hraw]
  rw [dif_pos text.isValidUTF8]

namespace Identifier

theorem ne_colon_of_isNamespaceChar {c : Char} (h : isNamespaceChar c = true) : c ≠ ':' := by
  rintro rfl
  exact absurd h (by decide)

theorem splitColon_append {before : List Char} (h : ∀ c ∈ before, c ≠ ':') (after : List Char) :
    splitColon (before ++ ':' :: after) = some (before, after) := by
  induction before with
  | nil => simp [splitColon]
  | cons c rest ih =>
      have hc : c ≠ ':' := h c (by simp)
      have hrest : ∀ d ∈ rest, d ≠ ':' := fun d hd => h d (by simp [hd])
      rw [List.cons_append, splitColon, if_neg hc, ih hrest]
      rfl

theorem splitColon_display (id : Identifier) :
    splitColon id.display.toList = some (id.ns.toList, id.path.toList) := by
  have hns : ∀ c ∈ id.ns.toList, c ≠ ':' := by
    intro c hc
    have hvalid := id.ns_valid
    simp only [isNamespace, Bool.and_eq_true, List.all_eq_true] at hvalid
    exact ne_colon_of_isNamespaceChar (hvalid.2 c hc)
  have hlist : id.display.toList = id.ns.toList ++ ':' :: id.path.toList := by
    simp [display]
  rw [hlist, splitColon_append hns]

theorem make_parts (id : Identifier) : make id.ns id.path = .ok id := by
  unfold make
  rw [dif_pos ⟨id.ns_valid, id.path_valid⟩, dif_pos id.size_le]

/-- The written form of an identifier stands for it. -/
theorem parse_display (id : Identifier) : parse id.display = .ok id := by
  unfold parse
  rw [splitColon_display]
  simp only [String.ofList_toList]
  exact make_parts id

/-- The written form keeps to the bound on identifiers. -/
theorem utf8ByteSize_display_le (id : Identifier) :
    id.display.utf8ByteSize ≤ maxIdentifierBytes := by
  have hsize : id.display.utf8ByteSize = written id.ns id.path := by
    simp only [display, written, String.utf8ByteSize_append]
    rfl
  rw [hsize]
  exact id.size_le

end Identifier

end PathWire
