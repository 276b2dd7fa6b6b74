import Mathlib.Algebra.Ring.Nat
import SessionEngine.Text.Utf8

/-!
# Reading back encoded text

Every text comes back from its bytes (`decodeLossy_encode`): the first byte of
a character announces how many follow and within which bounds, and the bounds
are those that the code points of that length keep (`nextChar_encodeChar`).

Bytes that encode no text are read as well. The same bounds see to it that the
zero character is only ever read from a zero byte (`nul_notMem_decodeChars`).
-/

namespace SessionEngine

namespace Utf8

theorem ofNat_val_toNat (c : Char) : Char.ofNat c.val.toNat = c := Char.ofNat_toNat c

theorem follow_ofNat {following value low high x : Nat} {rest : Bytes} (hlow : low ≤ x)
    (hhigh : x ≤ high) (hx : x < 256) :
    follow (following + 1) value low high (UInt8.ofNat x :: rest) =
      follow following (value * 64 + (x - 0x80)) 0x80 0xBF rest := by
  have hbyte : (UInt8.ofNat x).toNat = x := by
    rw [UInt8.toNat_ofNat']
    exact Nat.mod_eq_of_lt hx
  rw [follow, hbyte, if_pos ⟨hlow, hhigh⟩]

/-- A byte from the range of those that follow, for any value of its six bits. -/
theorem follow_sextet {following value n : Nat} {rest : Bytes} :
    follow (following + 1) value 0x80 0xBF (UInt8.ofNat (n % 0x40 + 0x80) :: rest) =
      follow following (value * 64 + n % 0x40) 0x80 0xBF rest := by
  have hlt := Nat.mod_lt n (by decide : 0x40 > 0)
  rw [follow_ofNat (by omega) (by omega) (by omega), Nat.add_sub_cancel]

theorem nextChar_lead {x : Nat} {lead : Lead} {rest : Bytes} (hx : x < 256) (hbig : ¬ x < 0x80)
    (hlead : lead? x = some lead) :
    nextChar (UInt8.ofNat x) rest = follow lead.following lead.bits lead.low lead.high rest := by
  have hbyte : (UInt8.ofNat x).toNat = x := by
    rw [UInt8.toNat_ofNat']
    exact Nat.mod_eq_of_lt hx
  rw [nextChar, hbyte, if_neg hbig, hlead]

/-! ## The four lengths -/

theorem nextChar_of_two {v : Nat} {rest : Bytes} (hlow : 0x7f < v) (hhigh : v ≤ 0x7ff) :
    nextChar (UInt8.ofNat (v / 64 % 0x20 + 0xc0)) (UInt8.ofNat (v % 0x40 + 0x80) :: rest) =
      (Char.ofNat v, rest) := by
  have hlead : lead? (v / 64 % 0x20 + 0xc0) = some ⟨1, v / 64, 0x80, 0xBF⟩ := by
    have hbits : v / 64 % 0x20 + 0xc0 - 0xC0 = v / 64 := by omega
    rw [lead?, if_neg (by omega), if_pos (by omega), hbits]
  have hvalue : v / 64 * 64 + v % 0x40 = v := by omega
  rw [nextChar_lead (by omega) (by omega) hlead]
  dsimp only
  rw [follow_sextet, follow, hvalue]

theorem lead?_of_three {v : Nat} (hlow : 0x7ff < v) (hhigh : v ≤ 0xffff)
    (hvalid : v < 0xd800 ∨ 0xdfff < v) :
    ∃ low high, lead? (v / 4096 % 0x10 + 0xe0) = some ⟨2, v / 4096, low, high⟩ ∧
      low ≤ v / 64 % 0x40 + 0x80 ∧ v / 64 % 0x40 + 0x80 ≤ high := by
  rw [lead?, if_neg (by omega), if_neg (by omega)]
  by_cases hfirst : v / 4096 % 0x10 + 0xe0 = 0xE0
  · -- smaller code points have a shorter encoding
    have hbits : v / 4096 = 0 := by omega
    rw [if_pos hfirst, hbits]
    exact ⟨0xA0, 0xBF, rfl, by omega, by omega⟩
  · rw [if_neg hfirst]
    by_cases hlast : v / 4096 % 0x10 + 0xe0 = 0xED
    · -- the surrogates would follow
      have hbits : v / 4096 = 0xD := by omega
      rw [if_pos hlast, hbits]
      exact ⟨0x80, 0x9F, rfl, by omega, by omega⟩
    · have hbits : v / 4096 % 0x10 + 0xe0 - 0xE0 = v / 4096 := by omega
      rw [if_neg hlast, if_pos (by omega), hbits]
      exact ⟨0x80, 0xBF, rfl, by omega, by omega⟩

theorem nextChar_of_three {v : Nat} {rest : Bytes} (hlow : 0x7ff < v) (hhigh : v ≤ 0xffff)
    (hvalid : v < 0xd800 ∨ 0xdfff < v) :
    nextChar (UInt8.ofNat (v / 4096 % 0x10 + 0xe0))
        (UInt8.ofNat (v / 64 % 0x40 + 0x80) :: UInt8.ofNat (v % 0x40 + 0x80) :: rest) =
      (Char.ofNat v, rest) := by
  obtain ⟨low, high, hlead, hsecond, hsecond'⟩ := lead?_of_three hlow hhigh hvalid
  have hvalue : (v / 4096 * 64 + (v / 64 % 0x40 + 0x80 - 0x80)) * 64 + v % 0x40 = v := by omega
  rw [nextChar_lead (by omega) (by omega) hlead]
  dsimp only
  rw [follow_ofNat hsecond hsecond' (by omega), follow_sextet, follow, hvalue]

theorem lead?_of_four {v : Nat} (hlow : 0xffff < v) (hhigh : v < 0x110000) :
    ∃ low high, lead? (v / 262144 % 0x08 + 0xf0) = some ⟨3, v / 262144, low, high⟩ ∧
      low ≤ v / 4096 % 0x40 + 0x80 ∧ v / 4096 % 0x40 + 0x80 ≤ high := by
  rw [lead?, if_neg (by omega), if_neg (by omega), if_neg (by omega), if_neg (by omega),
    if_neg (by omega)]
  by_cases hfirst : v / 262144 % 0x08 + 0xf0 = 0xF0
  · have hbits : v / 262144 = 0 := by omega
    rw [if_pos hfirst, hbits]
    exact ⟨0x90, 0xBF, rfl, by omega, by omega⟩
  · rw [if_neg hfirst]
    by_cases hmiddle : v / 262144 % 0x08 + 0xf0 ≤ 0xF3
    · have hbits : v / 262144 % 0x08 + 0xf0 - 0xF0 = v / 262144 := by omega
      rw [if_pos hmiddle, hbits]
      exact ⟨0x80, 0xBF, rfl, by omega, by omega⟩
    · have hbits : v / 262144 = 4 := by omega
      rw [if_neg hmiddle, if_pos (by omega), hbits]
      exact ⟨0x80, 0x8F, rfl, by omega, by omega⟩

theorem nextChar_of_four {v : Nat} {rest : Bytes} (hlow : 0xffff < v) (hhigh : v < 0x110000) :
    nextChar (UInt8.ofNat (v / 262144 % 0x08 + 0xf0))
        (UInt8.ofNat (v / 4096 % 0x40 + 0x80) :: UInt8.ofNat (v / 64 % 0x40 + 0x80) ::
          UInt8.ofNat (v % 0x40 + 0x80) :: rest) =
      (Char.ofNat v, rest) := by
  obtain ⟨low, high, hlead, hsecond, hsecond'⟩ := lead?_of_four hlow hhigh
  have hvalue : ((v / 262144 * 64 + (v / 4096 % 0x40 + 0x80 - 0x80)) * 64 + v / 64 % 0x40) * 64 +
      v % 0x40 = v := by omega
  rw [nextChar_lead (by omega) (by omega) hlead]
  dsimp only
  rw [follow_ofNat hsecond hsecond' (by omega), follow_sextet, follow_sextet, follow, hvalue]

/-- A character comes back from its bytes, whatever follows them. -/
theorem nextChar_encodeChar (c : Char) (rest : Bytes) :
    ∃ b more, String.utf8EncodeChar c = b :: more ∧ nextChar b (more ++ rest) = (c, rest) := by
  have hvalid : c.val.toNat < 0xd800 ∨ 0xdfff < c.val.toNat ∧ c.val.toNat < 0x110000 := c.valid
  have hchar := ofNat_val_toNat c
  simp only [String.utf8EncodeChar]
  generalize c.val.toNat = v at hvalid hchar ⊢
  by_cases hone : v ≤ 0x7f
  · rw [if_pos hone]
    have hbyte : (UInt8.ofNat v).toNat = v := by
      rw [UInt8.toNat_ofNat']
      exact Nat.mod_eq_of_lt (by omega)
    refine ⟨_, _, rfl, ?_⟩
    rw [nextChar, hbyte, if_pos (by omega), hchar]
    rfl
  · rw [if_neg hone]
    by_cases htwo : v ≤ 0x7ff
    · rw [if_pos htwo]
      exact ⟨_, _, rfl, (nextChar_of_two (by omega) htwo).trans (by rw [hchar]; rfl)⟩
    · rw [if_neg htwo]
      by_cases hthree : v ≤ 0xffff
      · rw [if_pos hthree]
        exact ⟨_, _, rfl,
          (nextChar_of_three (by omega) hthree (by omega)).trans (by rw [hchar]; rfl)⟩
      · rw [if_neg hthree]
        exact ⟨_, _, rfl, (nextChar_of_four (by omega) (by omega)).trans (by rw [hchar]; rfl)⟩

/-! ## Texts -/

theorem decodeChars_encodeChars (cs : List Char) : decodeChars (encodeChars cs) = cs := by
  induction cs with
  | nil => rw [encodeChars, List.flatMap_nil, decodeChars]
  | cons c cs ih =>
      obtain ⟨b, more, hbytes, hnext⟩ := nextChar_encodeChar c (encodeChars cs)
      rw [encodeChars, List.flatMap_cons, hbytes, List.cons_append, decodeChars]
      rw [encodeChars] at hnext ih
      rw [hnext, ih]

theorem decodeLossy_encode (text : String) : decodeLossy (encode text) = text := by
  rw [decodeLossy, encode, decodeChars_encodeChars, String.ofList_toList]

/-- Only the zero character has a zero byte. -/
theorem zero_notMem_encodeChar {c : Char} (h : c ≠ '\x00') : 0 ∉ String.utf8EncodeChar c := by
  intro hmem
  have hpos : 0 < c.val.toNat := by
    rcases Nat.eq_zero_or_pos c.val.toNat with hzero | hpos
    · refine absurd ?_ h
      rw [← ofNat_val_toNat c, hzero]
    · exact hpos
  have hbyte : ∀ x, 0 < x → x < 256 → (0 : UInt8) ≠ UInt8.ofNat x := by
    intro x hx hlt heq
    have hnat := congrArg UInt8.toNat heq
    rw [UInt8.toNat_ofNat', Nat.mod_eq_of_lt hlt] at hnat
    exact absurd hnat (Nat.ne_of_lt hx)
  simp only [String.utf8EncodeChar] at hmem
  generalize c.val.toNat = v at hpos hmem
  split at hmem
  · rw [List.mem_singleton] at hmem
    exact hbyte v hpos (by omega) hmem
  · split at hmem
    · simp only [List.mem_cons, List.not_mem_nil, or_false] at hmem
      rcases hmem with heq | heq <;> exact hbyte _ (by omega) (by omega) heq
    · split at hmem
      · simp only [List.mem_cons, List.not_mem_nil, or_false] at hmem
        rcases hmem with heq | heq | heq <;> exact hbyte _ (by omega) (by omega) heq
      · simp only [List.mem_cons, List.not_mem_nil, or_false] at hmem
        rcases hmem with heq | heq | heq | heq <;> exact hbyte _ (by omega) (by omega) heq

/-! ## Bytes that are no text -/

theorem replacement_ne_nul : replacement ≠ '\x00' := by decide

theorem ofNat_ne_nul {v : Nat} (hpos : 0 < v) (hvalid : v.isValidChar) :
    Char.ofNat v ≠ '\x00' := by
  intro heq
  have hvalue : (Char.ofNat v).toNat = v := by
    rw [Char.ofNat, dif_pos hvalid]
    rfl
  rw [heq] at hvalue
  exact absurd hvalue (Nat.ne_of_lt hpos)

/-- Each byte that follows adds six bits, so the value of its first byte bounds
the character. -/
theorem follow_ne_nul {following value low high : Nat} {bs : Bytes}
    (hvalid : ∀ second v, low ≤ second → second ≤ high →
      (value * 64 + (second - 0x80)) * 64 ^ following ≤ v →
      v < (value * 64 + (second - 0x80) + 1) * 64 ^ following → 0 < v ∧ v.isValidChar) :
    (follow (following + 1) value low high bs).1 ≠ '\x00' := by
  induction following generalizing value low high bs with
  | zero =>
      cases bs with
      | nil => exact replacement_ne_nul
      | cons b bs =>
          rw [follow]
          split
          next hsecond =>
              obtain ⟨hpos, hchar⟩ := hvalid b.toNat (value * 64 + (b.toNat - 0x80)) hsecond.1
                hsecond.2 (by omega) (by omega)
              simp only [follow]
              exact ofNat_ne_nul hpos hchar
          next => exact replacement_ne_nul
  | succ following ih =>
      cases bs with
      | nil => exact replacement_ne_nul
      | cons b bs =>
          rw [follow]
          split
          next hsecond =>
              refine ih ?_
              intro third v hthird hthird' hge hlt
              refine hvalid b.toNat v hsecond.1 hsecond.2 ?_ ?_
              · refine Nat.le_trans ?_ hge
                rw [Nat.pow_succ', ← Nat.mul_assoc]
                exact Nat.mul_le_mul_right _ (Nat.le_add_right _ _)
              · refine Nat.lt_of_lt_of_le hlt ?_
                rw [Nat.pow_succ', ← Nat.mul_assoc]
                exact Nat.mul_le_mul_right _ (by omega)
          next => exact replacement_ne_nul

/-- The bounds of the second byte leave out what is no character. -/
theorem isValidChar_of_lead? {x second v : Nat} {lead : Lead} (hlead : lead? x = some lead)
    (hlow : lead.low ≤ second) (hhigh : second ≤ lead.high)
    (hge : (lead.bits * 64 + (second - 0x80)) * 64 ^ (lead.following - 1) ≤ v)
    (hlt : v < (lead.bits * 64 + (second - 0x80) + 1) * 64 ^ (lead.following - 1)) :
    0 < v ∧ v.isValidChar := by
  unfold Nat.isValidChar
  -- one case for each kind of first byte, in each of them an interval of code points
  rw [lead?] at hlead
  repeat' split at hlead
  all_goals cases hlead
  all_goals simp only [Nat.reduceSub, Nat.reducePow] at hlow hhigh hge hlt; omega

theorem following_pos_of_lead? {x : Nat} {lead : Lead} (hlead : lead? x = some lead) :
    lead.following - 1 + 1 = lead.following := by
  rw [lead?] at hlead
  repeat' split at hlead
  all_goals cases hlead <;> rfl

theorem nextChar_ne_nul {b : UInt8} (hb : b ≠ 0) (rest : Bytes) :
    (nextChar b rest).1 ≠ '\x00' := by
  rw [nextChar]
  split
  next hsmall =>
      have hpos : 0 < b.toNat := Nat.pos_of_ne_zero fun hzero => hb (UInt8.toNat_inj.mp hzero)
      exact ofNat_ne_nul hpos (Or.inl (Nat.lt_trans hsmall (by decide)))
  next =>
      cases hlead : lead? b.toNat with
      | none => exact replacement_ne_nul
      | some lead =>
          dsimp only
          rw [← following_pos_of_lead? hlead]
          exact follow_ne_nul fun second v hlow hhigh hge hlt =>
            isValidChar_of_lead? hlead hlow hhigh hge hlt

theorem follow_suffix (following value low high : Nat) (bs : Bytes) :
    (follow following value low high bs).2 <:+ bs := by
  induction following generalizing value low high bs with
  | zero => exact List.suffix_refl bs
  | succ following ih =>
      cases bs with
      | nil => exact List.suffix_refl []
      | cons b bs =>
          rw [follow]
          split
          next => exact (ih ..).trans (List.suffix_cons b bs)
          next => exact List.suffix_refl (b :: bs)

theorem nextChar_suffix (b : UInt8) (rest : Bytes) : (nextChar b rest).2 <:+ rest := by
  rw [nextChar]
  split
  next => exact List.suffix_refl rest
  next =>
      split
      next => exact List.suffix_refl rest
      next => exact follow_suffix ..

/-- Reading without a zero byte gives no zero character. -/
theorem nul_notMem_decodeChars {bs : Bytes} (h : 0 ∉ bs) : '\x00' ∉ decodeChars bs := by
  fun_induction decodeChars bs with
  | case1 => exact List.not_mem_nil
  | case2 b rest ih =>
      rw [List.mem_cons, not_or] at h ⊢
      refine ⟨(nextChar_ne_nul (Ne.symm h.1) rest).symm, ih ?_⟩
      exact fun hmem => h.2 ((nextChar_suffix b rest).subset hmem)

end Utf8

end SessionEngine
