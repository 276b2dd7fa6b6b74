import SessionEngine.Proofs.Text.Cutting

/-!
# Cutting bytes between two characters

Whoever has only the bytes of a text can still tell where it may be cut: not in
front of a byte that goes on with a character (`isBoundary`). These places are
the lengths of the front parts of the text (`isBoundary_encodeChars_iff`), so
the longest front part that fits ends at the last of them that is not behind
the limit.

Walking back from the limit finds it (`walkBack?`). At most three bytes of a
character go on with it, so the walk ends after three turns at most, and the
front of the bytes is never passed (`walkBack?_truncate`). `truncate_longest`
has all of it together.
-/

namespace SessionEngine

namespace Utf8

/-! ## Bytes of characters -/

/-- Whether a byte goes on with a character that began before it. -/
def continues (b : UInt8) : Bool := 0x80 ≤ b.toNat && b.toNat < 0xC0

/-- Whether bytes may be cut at a place: at either end, and in front of a byte
that begins a character. -/
def isBoundary (bs : Bytes) (place : Nat) : Bool :=
  place = 0 ||
    match bs[place]? with
    | some b => !continues b
    | none => place = bs.length

/-- Walks back from a place to where bytes may be cut. There is no answer if
this takes more turns, or if the front of the bytes would be passed. -/
def walkBack? (bs : Bytes) : (turns place : Nat) → Option Nat
  | 0, place => if isBoundary bs place then some place else none
  | turns + 1, place =>
      if isBoundary bs place then some place
      else if place = 0 then none
      else walkBack? bs turns (place - 1)

theorem continues_ofNat {x : Nat} (hx : x < 256) :
    continues (UInt8.ofNat x) = (0x80 ≤ x && x < 0xC0) := by
  rw [continues, UInt8.toNat_ofNat', Nat.mod_eq_of_lt hx]

/-- The first byte of a character begins it, and all others go on with it. -/
theorem exists_encodeChar (c : Char) :
    ∃ b more, String.utf8EncodeChar c = b :: more ∧ continues b = false ∧
      ∀ x ∈ more, continues x = true := by
  have hvalid : c.val.toNat < 0x110000 := by
    rcases c.valid with hlow | ⟨-, hhigh⟩
    · exact Nat.lt_trans hlow (by decide)
    · exact hhigh
  have hbegins : ∀ x, x < 256 → x < 0x80 ∨ 0xC0 ≤ x → continues (UInt8.ofNat x) = false := by
    intro x hx hrange
    rw [continues_ofNat hx, Bool.and_eq_false_iff, decide_eq_false_iff_not,
      decide_eq_false_iff_not]
    omega
  have hsextet : ∀ n, continues (UInt8.ofNat (n % 0x40 + 0x80)) = true := by
    intro n
    rw [continues_ofNat (by omega), Bool.and_eq_true, decide_eq_true_eq, decide_eq_true_eq]
    omega
  simp only [String.utf8EncodeChar]
  generalize c.val.toNat = v at hvalid
  split
  · exact ⟨_, _, rfl, hbegins v (by omega) (by omega), fun _ hmem => absurd hmem List.not_mem_nil⟩
  · split
    · refine ⟨_, _, rfl, hbegins _ (by omega) (by omega), ?_⟩
      simp only [List.mem_cons, List.not_mem_nil, or_false, forall_eq]
      exact hsextet v
    · split
      · refine ⟨_, _, rfl, hbegins _ (by omega) (by omega), ?_⟩
        simp only [List.mem_cons, List.not_mem_nil, or_false, forall_eq_or_imp, forall_eq]
        exact ⟨hsextet _, hsextet v⟩
      · refine ⟨_, _, rfl, hbegins _ (by omega) (by omega), ?_⟩
        simp only [List.mem_cons, List.not_mem_nil, or_false, forall_eq_or_imp, forall_eq]
        exact ⟨hsextet _, hsextet _, hsextet v⟩

/-! ## Where a text may be cut -/

theorem isBoundary_of_getElem? {bs : Bytes} {place : Nat} {b : UInt8} (hpos : 0 < place)
    (hbyte : bs[place]? = some b) : isBoundary bs place = !continues b := by
  rw [isBoundary, decide_eq_false (Nat.ne_of_gt hpos), Bool.false_or, hbyte]

section Places

variable {c : Char} {cs : List Char} {place limit : Nat}

theorem encodeChars_cons (c : Char) (cs : List Char) :
    encodeChars (c :: cs) = String.utf8EncodeChar c ++ encodeChars cs :=
  List.flatMap_cons

/-- Nowhere within a character. -/
theorem isBoundary_within (hpos : 0 < place) (hlt : place < c.utf8Size) :
    isBoundary (encodeChars (c :: cs)) place = false := by
  obtain ⟨b, more, hchar, -, hmore⟩ := exists_encodeChar c
  have hlength : place < (b :: more).length := by
    rw [← hchar, String.length_utf8EncodeChar]
    exact hlt
  obtain ⟨place, rfl⟩ := Nat.exists_eq_succ_of_ne_zero (Nat.ne_of_gt hpos)
  have hmorelength : place < more.length := by simpa using hlength
  have hbyte : (encodeChars (c :: cs))[place + 1]? = some more[place] := by
    rw [encodeChars_cons, hchar, List.getElem?_append_left hlength, List.getElem?_cons_succ,
      List.getElem?_eq_getElem]
  rw [isBoundary_of_getElem? hpos hbyte, hmore _ (List.getElem_mem _), Bool.not_true]

/-- Behind a character, where the rest may be cut. -/
theorem isBoundary_behind :
    isBoundary (encodeChars (c :: cs)) (c.utf8Size + place) =
      isBoundary (encodeChars cs) place := by
  have hpos : 0 < c.utf8Size + place := Nat.lt_of_lt_of_le c.utf8Size_pos (Nat.le_add_right _ _)
  have hbyte : (encodeChars (c :: cs))[c.utf8Size + place]? = (encodeChars cs)[place]? := by
    rw [encodeChars_cons, List.getElem?_append_right (by simp), String.length_utf8EncodeChar,
      Nat.add_sub_cancel_left]
  have hlength := length_encodeChars_cons c cs
  cases hrest : (encodeChars cs)[place]? with
  | none =>
      have hle := List.getElem?_eq_none_iff.mp hrest
      rw [isBoundary, isBoundary, hbyte, hrest, hlength, decide_eq_false (Nat.ne_of_gt hpos)]
      simp only [Bool.false_or, Nat.add_left_cancel_iff]
      by_cases hzero : place = 0
      · have hend : place = (encodeChars cs).length := by omega
        simp only [hzero, ← hend, decide_true, Bool.true_or]
      · rw [decide_eq_false hzero, Bool.false_or]
  | some b =>
      rw [isBoundary_of_getElem? hpos (hbyte.trans hrest)]
      rcases Nat.eq_zero_or_pos place with rfl | hplace
      · cases cs with
        | nil => cases hrest
        | cons d ds =>
            obtain ⟨first, more, hchar, hbegins, -⟩ := exists_encodeChar d
            rw [encodeChars_cons, hchar] at hrest
            obtain rfl := Option.some.inj hrest
            rw [hbegins]
            rfl
      · rw [isBoundary_of_getElem? hplace hrest]

/-- The places are the lengths of the front parts. -/
theorem isBoundary_encodeChars_iff :
    isBoundary (encodeChars cs) place = true ↔
      ∃ ds, ds <+: cs ∧ (encodeChars ds).length = place := by
  induction cs generalizing place with
  | nil =>
      have hnil : isBoundary (encodeChars []) place = decide (place = 0) := by
        rw [isBoundary]
        simp [encodeChars]
      rw [hnil, decide_eq_true_eq]
      constructor
      · rintro rfl
        exact ⟨[], List.nil_prefix, rfl⟩
      · rintro ⟨ds, hstarts, rfl⟩
        rw [List.prefix_nil.mp hstarts]
        rfl
  | cons c cs ih =>
      rcases Nat.eq_zero_or_pos place with rfl | hpos
      · exact ⟨fun _ => ⟨[], List.nil_prefix, rfl⟩, fun _ => rfl⟩
      · by_cases hlt : place < c.utf8Size
        · rw [isBoundary_within hpos hlt]
          refine ⟨fun h => Bool.noConfusion h, ?_⟩
          rintro ⟨ds, hstarts, rfl⟩
          cases ds with
          | nil => exact absurd hpos (Nat.lt_irrefl 0)
          | cons d ds =>
              obtain ⟨rfl, -⟩ := List.cons_prefix_cons.mp hstarts
              rw [length_encodeChars_cons] at hlt
              omega
        · obtain ⟨behind, rfl⟩ := Nat.exists_eq_add_of_le (Nat.le_of_not_lt hlt)
          rw [isBoundary_behind, ih]
          constructor
          · rintro ⟨ds, hstarts, rfl⟩
            exact ⟨c :: ds, List.cons_prefix_cons.mpr ⟨rfl, hstarts⟩, length_encodeChars_cons c ds⟩
          · rintro ⟨ds, hstarts, hlength⟩
            cases ds with
            | nil =>
                have hzero : 0 = c.utf8Size + behind := hlength
                omega
            | cons d ds =>
                obtain ⟨rfl, hrest⟩ := List.cons_prefix_cons.mp hstarts
                rw [length_encodeChars_cons] at hlength
                exact ⟨ds, hrest, by omega⟩

end Places

/-! ## The cut -/

theorem encodeChars_append (cs ds : List Char) :
    encodeChars (cs ++ ds) = encodeChars cs ++ encodeChars ds :=
  List.flatMap_append

theorem truncateChars_of_length_le {limit : Nat} {cs : List Char}
    (hfits : (encodeChars cs).length ≤ limit) : truncateChars limit cs = cs := by
  have hstarts := truncateChars_prefix limit cs
  exact hstarts.eq_of_length_le (prefix_truncateChars (List.prefix_refl cs) hfits).length_le

/-- The next character does not fit, and it has four bytes at most. -/
theorem le_length_truncateChars_add {limit : Nat} {cs : List Char}
    (hlong : limit < (encodeChars cs).length) :
    limit ≤ (encodeChars (truncateChars limit cs)).length + 3 := by
  induction cs generalizing limit with
  | nil => exact absurd hlong (Nat.not_lt_zero limit)
  | cons c cs ih =>
      rw [truncateChars]
      split
      next hfits =>
          rw [length_encodeChars_cons] at hlong ⊢
          have hrest := @ih (limit - c.utf8Size) (by omega)
          omega
      next hwide =>
          have hfour := c.utf8Size_le_four
          omega

theorem truncateChars_truncateChars (limit other : Nat) (cs : List Char) :
    truncateChars other (truncateChars limit cs) = truncateChars (min limit other) cs := by
  induction cs generalizing limit other with
  | nil => rfl
  | cons c cs ih =>
      rw [truncateChars, truncateChars]
      by_cases hlimit : c.utf8Size ≤ limit
      · rw [if_pos hlimit, truncateChars]
        by_cases hother : c.utf8Size ≤ other
        · have hmin : min limit other - c.utf8Size =
              min (limit - c.utf8Size) (other - c.utf8Size) := by
            omega
          rw [if_pos hother, if_pos (by omega), ih, hmin]
        · rw [if_neg hother, if_neg (by omega)]
      · rw [if_neg hlimit, if_neg (by omega), truncateChars]

/-- The longest part at the front of some bytes that ends where they may be cut
and takes at most `limit` bytes. -/
structure IsLongest (limit : Nat) (bytes cut : Bytes) : Prop where
  starts : cut <+: bytes
  boundary : isBoundary bytes cut.length = true
  fits : cut.length ≤ limit
  longest : ∀ place, isBoundary bytes place = true → place ≤ limit → place ≤ cut.length

theorem isLongest_truncateChars (limit : Nat) (cs : List Char) :
    IsLongest limit (encodeChars cs) (encodeChars (truncateChars limit cs)) where
  starts := by
    obtain ⟨rest, hrest⟩ := truncateChars_prefix limit cs
    refine ⟨encodeChars rest, ?_⟩
    rw [← encodeChars_append, hrest]
  boundary := isBoundary_encodeChars_iff.mpr ⟨_, truncateChars_prefix limit cs, rfl⟩
  fits := length_encodeChars_truncateChars_le limit cs
  longest := by
    intro place hboundary hplace
    obtain ⟨ds, hstarts, rfl⟩ := isBoundary_encodeChars_iff.mp hboundary
    obtain ⟨rest, hrest⟩ := prefix_truncateChars hstarts hplace
    rw [← hrest, encodeChars_append, List.length_append]
    exact Nat.le_add_right _ _

/-- A walk ends at the last place that is not behind its start, if it has a turn
for each place that it passes. -/
theorem walkBack?_eq_some {bs : Bytes} {turns place last : Nat}
    (hlast : isBoundary bs last = true) (hle : last ≤ place) (hturns : place ≤ last + turns)
    (hbetween : ∀ other, isBoundary bs other = true → other ≤ place → other ≤ last) :
    walkBack? bs turns place = some last := by
  induction turns generalizing place with
  | zero =>
      obtain rfl : place = last := Nat.le_antisymm hturns hle
      rw [walkBack?, if_pos hlast]
  | succ turns ih =>
      rw [walkBack?]
      by_cases hhere : isBoundary bs place = true
      · rw [if_pos hhere, Nat.le_antisymm (hbetween place hhere (Nat.le_refl _)) hle]
      · have hne : place ≠ last := by
          rintro rfl
          exact hhere hlast
        rw [if_neg hhere, if_neg (by omega)]
        exact ih (by omega) (by omega) fun other hother hplace =>
          hbetween other hother (by omega)

theorem walkBack?_truncate {limit : Nat} {text : String} (hlong : limit < (encode text).length) :
    walkBack? (encode text) 3 limit = some (encode (truncate limit text)).length := by
  have hcut := isLongest_truncateChars limit text.toList
  rw [encode, encode, truncate, String.toList_ofList]
  exact walkBack?_eq_some hcut.boundary hcut.fits (le_length_truncateChars_add hlong) hcut.longest

/-- A text that fits is left alone. Any other is cut at the last place within
the limit at which its bytes may be cut, which a walk back from the limit finds
after three turns at most. Cutting twice is cutting once, to the smaller
limit. -/
theorem truncate_longest (limit : Nat) (text : String) :
    IsLongest limit (encode text) (encode (truncate limit text)) ∧
      ((encode text).length ≤ limit → truncate limit text = text) ∧
      (limit < (encode text).length →
        walkBack? (encode text) 3 limit = some (encode (truncate limit text)).length ∧
          limit ≤ (encode (truncate limit text)).length + 3) ∧
      ∀ other, truncate other (truncate limit text) = truncate (min limit other) text := by
  have hbytes : encode (truncate limit text) = encodeChars (truncateChars limit text.toList) := by
    rw [encode, truncate, String.toList_ofList]
  refine ⟨?_, ?_, ?_, ?_⟩
  · rw [hbytes]
    exact isLongest_truncateChars limit text.toList
  · intro hfits
    rw [truncate, truncateChars_of_length_le hfits, String.ofList_toList]
  · intro hlong
    refine ⟨walkBack?_truncate hlong, ?_⟩
    rw [hbytes]
    exact le_length_truncateChars_add hlong
  · intro other
    rw [truncate, truncate, truncate, String.toList_ofList, truncateChars_truncateChars]

/-- A limit within a character of three bytes. -/
theorem truncate_longest_threeBytes :
    3 < (encode "a€b").length ∧ walkBack? (encode "a€b") 3 3 = some 1 ∧ truncate 3 "a€b" = "a" := by
  have hlong : 3 < (encode "a€b").length := by decide
  have hcut : truncate 3 "a€b" = "a" := by decide
  obtain ⟨hwalk, -⟩ := (truncate_longest 3 "a€b").2.2.1 hlong
  rw [hcut] at hwalk
  exact ⟨hlong, hwalk, hcut⟩

end Utf8

end SessionEngine
