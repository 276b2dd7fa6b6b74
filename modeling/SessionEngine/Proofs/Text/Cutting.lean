import Mathlib.Data.List.TakeWhile
import SessionEngine.Proofs.Text.Utf8

/-!
# Texts in fields of fixed width

A text that is too long for its field is cut. What stays is the longest part
at its front that ends between two characters and fits (`isCut_truncate`).
Whoever reads the field stops at the first zero byte, which is the first zero
character of the text (`beforeNul_encode`), so that all that is read of a text
is the part in front of it (`decodeLossy_field`).
-/

namespace SessionEngine

namespace Utf8

/-! ## Cutting -/

/-- The longest front part of a text that takes at most `limit` bytes. -/
structure IsCut (limit : Nat) (text cut : String) : Prop where
  starts : cut.toList <+: text.toList
  fits : (encode cut).length ≤ limit
  longest : ∀ cs, cs <+: text.toList → (encodeChars cs).length ≤ limit → cs <+: cut.toList

/-- A text that fits is not cut. -/
theorem IsCut.eq_self {limit : Nat} {text cut : String} (h : IsCut limit text cut)
    (hfits : (encode text).length ≤ limit) : cut = text := by
  have hlongest := h.longest text.toList List.prefix_rfl hfits
  exact String.ext (h.starts.eq_of_length_le hlongest.length_le)

theorem prefix_truncateChars {limit : Nat} {cs ds : List Char} (hstarts : ds <+: cs)
    (hfits : (encodeChars ds).length ≤ limit) : ds <+: truncateChars limit cs := by
  induction cs generalizing limit ds with
  | nil =>
      rw [List.prefix_nil] at hstarts
      rw [hstarts]
      exact List.nil_prefix
  | cons c cs ih =>
      cases ds with
      | nil => exact List.nil_prefix
      | cons d ds =>
          obtain ⟨rfl, hrest⟩ := List.cons_prefix_cons.mp hstarts
          rw [length_encodeChars_cons] at hfits
          rw [truncateChars, if_pos (by omega)]
          exact List.cons_prefix_cons.mpr ⟨rfl, ih hrest (by omega)⟩

theorem isCut_truncate (limit : Nat) (text : String) : IsCut limit text (truncate limit text) where
  starts := truncate_prefix limit text
  fits := length_encode_truncate_le limit text
  longest := by
    intro cs hstarts hfits
    rw [truncate, String.toList_ofList]
    exact prefix_truncateChars hstarts hfits

/-! ## Zero characters -/

/-- The part of a text in front of its first zero character. -/
def untilNul (text : String) : String := String.ofList (text.toList.takeWhile (· != '\x00'))

theorem untilNul_eq_self {text : String} (h : '\x00' ∉ text.toList) : untilNul text = text := by
  have hall : ∀ c ∈ text.toList, (c != '\x00') = true := by
    intro c hmem
    rw [bne_iff_ne]
    rintro rfl
    exact h hmem
  rw [untilNul, List.takeWhile_eq_self_iff.mpr hall, String.ofList_toList]

theorem nul_notMem_untilNul (text : String) : '\x00' ∉ (untilNul text).toList := by
  rw [untilNul, String.toList_ofList]
  intro hmem
  have hne := List.mem_takeWhile_imp hmem
  exact absurd hne (by decide)

theorem beforeNul_encodeChars (cs : List Char) :
    Bytes.beforeNul (encodeChars cs) = encodeChars (cs.takeWhile (· != '\x00')) := by
  induction cs with
  | nil => rfl
  | cons c cs ih =>
      have hcons : encodeChars (c :: cs) = String.utf8EncodeChar c ++ encodeChars cs :=
        List.flatMap_cons
      rw [hcons]
      by_cases hzero : c = '\x00'
      · subst hzero
        have hbytes : String.utf8EncodeChar '\x00' = [0] := by decide
        rw [hbytes, List.takeWhile_cons_of_neg (by simp)]
        rfl
      · rw [Bytes.beforeNul_append_of_zero_notMem _ _ (zero_notMem_encodeChar hzero), ih,
          List.takeWhile_cons_of_pos (by simpa using hzero)]
        rfl

theorem beforeNul_encode (text : String) :
    Bytes.beforeNul (encode text) = encode (untilNul text) := by
  rw [encode, beforeNul_encodeChars, encode, untilNul, String.toList_ofList]

/-- What is read of a text that fits into its field. -/
theorem decodeLossy_field {width : Nat} {text : String} (h : (encode text).length ≤ width) :
    decodeLossy (Bytes.beforeNul (Bytes.padTo width (encode text))) = untilNul text := by
  rw [Bytes.beforeNul_padTo _ _ h, beforeNul_encode, decodeLossy_encode]

end Utf8

end SessionEngine
