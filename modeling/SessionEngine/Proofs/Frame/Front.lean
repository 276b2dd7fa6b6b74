import SessionEngine.Frame

/-!
# The front of a stream that grows

What stands at the front of the unread bytes is settled by the bytes that
have arrived: a whole frame stays the same frame, and an impossible header
stays impossible, whatever follows (`front_append_of_whole`,
`front_append_of_malformed`). Only an incomplete front can change, and then
the header, once it is there, already says how long the frame will be
(`size_of_front_eq_incomplete`).

`IsFrame` are the byte strings that are one whole frame; what `build?` writes
is one of them (`isFrame_of_build?`).
-/

namespace SessionEngine

namespace Bytes

theorem word16_append_left {offset : Nat} {bs : Bytes} (more : Bytes)
    (h : offset + 2 ≤ bs.length) : word16 offset (bs ++ more) = word16 offset bs := by
  rw [word16, word16, List.drop_append_of_le_length (by omega),
    List.take_append_of_le_length (by simp; omega)]

end Bytes

namespace Header

theorem parse?_eq_none_iff {bs : Bytes} : parse? bs = none ↔ bs.length < length := by
  rw [parse?, List.length_take]
  split
  next h => exact ⟨fun _ => by omega, fun _ => rfl⟩
  next h =>
      constructor
      · intro hnone
        cases hnone
      · intro hshort
        omega

theorem length_le_of_parse? {bs : Bytes} {header : Header} (h : parse? bs = some header) :
    length ≤ bs.length := by
  by_cases hlen : bs.length < length
  · rw [parse?_eq_none_iff.mpr hlen] at h
    cases h
  · omega

/-- A header that is there does not depend on what follows. -/
theorem parse?_append_left {bs : Bytes} {header : Header} (more : Bytes)
    (h : parse? bs = some header) : parse? (bs ++ more) = some header := by
  have hlen := length_le_of_parse? h
  rw [length] at hlen
  rw [parse?, List.length_take, length, if_neg (by omega)] at h
  rw [parse?, List.length_take, length, if_neg (by simp; omega),
    Bytes.word16_append_left more (by omega), Bytes.word16_append_left more (by omega)]
  exact h

end Header

namespace Frame

/-! ## The three kinds of front -/

theorem front_of_size_lt {data : Bytes} {header : Header} (hp : Header.parse? data = some header)
    (hsize : header.size.toNat < Header.length) : front data = .malformed header.size := by
  rw [front, hp]
  simp only
  rw [if_pos hsize]

theorem front_of_length_lt {data : Bytes} {header : Header}
    (hp : Header.parse? data = some header) (hsize : Header.length ≤ header.size.toNat)
    (hlen : data.length < header.size.toNat) : front data = .incomplete := by
  rw [front, hp]
  simp only
  rw [if_neg (by omega), if_pos (by simp; omega)]

theorem front_of_size_le_length {data : Bytes} {header : Header}
    (hp : Header.parse? data = some header) (hsize : Header.length ≤ header.size.toNat)
    (hlen : header.size.toNat ≤ data.length) :
    front data = .whole (data.take header.size.toNat) (data.drop header.size.toNat) := by
  rw [front, hp]
  simp only
  rw [if_neg (by omega), if_neg (by simp; omega)]

theorem front_of_length_lt_header {data : Bytes} (h : data.length < Header.length) :
    front data = .incomplete := by
  rw [front, Header.parse?_eq_none_iff.mpr h]

@[simp] theorem front_nil : front [] = .incomplete :=
  front_of_length_lt_header (by decide)

/-- The header of a whole frame tells its length. -/
theorem parse?_of_front_eq_whole {data frame rest : Bytes} (h : front data = .whole frame rest) :
    ∃ header, Header.parse? data = some header ∧ Header.length ≤ header.size.toNat ∧
      frame = data.take header.size.toNat ∧ rest = data.drop header.size.toNat ∧
      header.size.toNat ≤ data.length := by
  cases hp : Header.parse? data with
  | none =>
      rw [front, hp] at h
      cases h
  | some header =>
      by_cases hsize : header.size.toNat < Header.length
      · rw [front_of_size_lt hp hsize] at h
        cases h
      · by_cases hlen : data.length < header.size.toNat
        · rw [front_of_length_lt hp (by omega) hlen] at h
          cases h
        · rw [front_of_size_le_length hp (by omega) (by omega)] at h
          obtain ⟨rfl, rfl⟩ := Front.whole.inj h
          exact ⟨header, rfl, by omega, rfl, rfl, by omega⟩

theorem parse?_of_front_eq_malformed {data : Bytes} {size : UInt16}
    (h : front data = .malformed size) :
    ∃ header, Header.parse? data = some header ∧ header.size = size ∧
      size.toNat < Header.length := by
  cases hp : Header.parse? data with
  | none =>
      rw [front, hp] at h
      cases h
  | some header =>
      by_cases hsize : header.size.toNat < Header.length
      · rw [front_of_size_lt hp hsize] at h
        obtain rfl := Front.malformed.inj h
        exact ⟨header, rfl, rfl, hsize⟩
      · by_cases hlen : data.length < header.size.toNat
        · rw [front_of_length_lt hp (by omega) hlen] at h
          cases h
        · rw [front_of_size_le_length hp (by omega) (by omega)] at h
          cases h

/-- A frame of which only a part is there announces a length beyond that part. -/
theorem size_of_front_eq_incomplete {data : Bytes} (h : front data = .incomplete)
    (hlen : Header.length ≤ data.length) :
    ∃ header, Header.parse? data = some header ∧ Header.length ≤ header.size.toNat ∧
      data.length < header.size.toNat := by
  cases hp : Header.parse? data with
  | none =>
      have hshort := Header.parse?_eq_none_iff.mp hp
      omega
  | some header =>
      by_cases hsize : header.size.toNat < Header.length
      · rw [front_of_size_lt hp hsize] at h
        cases h
      · by_cases hdata : data.length < header.size.toNat
        · exact ⟨header, rfl, by omega, hdata⟩
        · rw [front_of_size_le_length hp (by omega) (by omega)] at h
          cases h

/-! ## More bytes behind -/

theorem front_append_of_whole {data frame rest : Bytes} (more : Bytes)
    (h : front data = .whole frame rest) : front (data ++ more) = .whole frame (rest ++ more) := by
  obtain ⟨header, hp, hsize, rfl, rfl, hlen⟩ := parse?_of_front_eq_whole h
  rw [front_of_size_le_length (Header.parse?_append_left more hp) hsize (by simp; omega),
    List.take_append_of_le_length hlen, List.drop_append_of_le_length hlen]

theorem front_append_of_malformed {data : Bytes} {size : UInt16} (more : Bytes)
    (h : front data = .malformed size) : front (data ++ more) = .malformed size := by
  obtain ⟨header, hp, rfl, hsize⟩ := parse?_of_front_eq_malformed h
  exact front_of_size_lt (Header.parse?_append_left more hp) hsize

/-- Induction on the frames at the front of a stream. -/
theorem stream_induction {P : Bytes → Prop}
    (incomplete : ∀ data, front data = .incomplete → P data)
    (malformed : ∀ data size, front data = .malformed size → P data)
    (whole : ∀ data frame rest, front data = .whole frame rest → P rest → P data)
    (data : Bytes) : P data := by
  generalize hlen : data.length = n
  induction n using Nat.strongRecOn generalizing data with
  | ind n ih =>
      subst hlen
      cases hfront : front data with
      | incomplete => exact incomplete data hfront
      | malformed size => exact malformed data size hfront
      | whole frame rest =>
          exact whole data frame rest hfront (ih rest.length (length_rest_lt hfront) rest rfl)

/-! ## Byte strings that are one frame -/

/-- The whole byte string is one frame. -/
def IsFrame (frame : Bytes) : Prop := front frame = .whole frame []

theorem IsFrame.length_le {frame : Bytes} (h : IsFrame frame) : Header.length ≤ frame.length :=
  le_length_of_front_eq_whole h

theorem IsFrame.front_append {frame : Bytes} (h : IsFrame frame) (rest : Bytes) :
    front (frame ++ rest) = .whole frame rest := by
  simpa using front_append_of_whole rest h

theorem isFrame_of_front_eq_whole {data frame rest : Bytes} (h : front data = .whole frame rest) :
    IsFrame frame := by
  obtain ⟨header, hp, hsize, rfl, rfl, hlen⟩ := parse?_of_front_eq_whole h
  have htaken : (data.take header.size.toNat).length = header.size.toNat := by simp; omega
  have hparsed : Header.parse? (data.take header.size.toNat) = some header := by
    cases hq : Header.parse? (data.take header.size.toNat) with
    | none =>
        have hshort := Header.parse?_eq_none_iff.mp hq
        omega
    | some other =>
        have happend := Header.parse?_append_left (data.drop header.size.toNat) hq
        rw [List.take_append_drop, hp] at happend
        exact happend.symm
  rw [IsFrame, front_of_size_le_length hparsed hsize (by omega),
    List.take_of_length_le (by omega), List.drop_of_length_le (by omega)]

/-- A strict beginning of a frame is no whole frame yet, and nothing else either. -/
theorem IsFrame.front_take {frame : Bytes} (h : IsFrame frame) {n : Nat} (hn : n < frame.length) :
    front (frame.take n) = .incomplete := by
  obtain ⟨header, hp, hsize, htake, -, hlen⟩ := parse?_of_front_eq_whole h
  have hframe : frame.length = header.size.toNat := by
    have := congrArg List.length htake
    rw [List.length_take] at this
    omega
  by_cases hshort : n < Header.length
  · exact front_of_length_lt_header (by simp; omega)
  · cases hq : Header.parse? (frame.take n) with
    | none =>
        have hnone := Header.parse?_eq_none_iff.mp hq
        rw [List.length_take] at hnone
        omega
    | some other =>
        have happend := Header.parse?_append_left (frame.drop n) hq
        rw [List.take_append_drop, hp] at happend
        obtain rfl := Option.some.inj happend
        exact front_of_length_lt hq hsize (by simp; omega)

/-- Frames that a memory of `limit` bytes can hold. -/
def FitIn (limit : Nat) (frames : List Bytes) : Prop :=
  ∀ frame ∈ frames, IsFrame frame ∧ frame.length ≤ limit

theorem FitIn.mono {limit limit' : Nat} (hle : limit ≤ limit') {frames : List Bytes}
    (h : FitIn limit frames) : FitIn limit' frames := by
  intro frame hmem
  exact ⟨(h frame hmem).1, Nat.le_trans (h frame hmem).2 hle⟩

theorem FitIn.of_append_right {limit : Nat} {frames more : List Bytes}
    (h : FitIn limit (frames ++ more)) : FitIn limit more := by
  intro frame hmem
  exact h frame (List.mem_append_right _ hmem)

/-- Bytes that wait for more are no whole frames. -/
theorem FitIn.eq_nil {limit : Nat} {frames : List Bytes} (h : FitIn limit frames)
    (hfront : front frames.flatten = .incomplete) : frames = [] := by
  cases frames with
  | nil => rfl
  | cons frame frames =>
      have hwhole := (h frame List.mem_cons_self).1.front_append frames.flatten
      rw [List.flatten_cons, hwhole] at hfront
      cases hfront

/-! ## Splitting, one front at a time -/

section Split

variable {σ : Type} (dispatch : σ → Bytes → σ × Bool) (s : σ) (consumed : Nat) {data : Bytes}

theorem splitFrom_of_incomplete (h : front data = .incomplete) :
    splitFrom dispatch s consumed data = (s, .ok consumed) := by
  rw [splitFrom]
  split
  next => rfl
  next size heq => rw [h] at heq; cases heq
  next frame rest heq => rw [h] at heq; cases heq

theorem splitFrom_of_malformed {size : UInt16} (h : front data = .malformed size) :
    splitFrom dispatch s consumed data = (s, .error (.invalidSize size)) := by
  rw [splitFrom]
  split
  next heq => rw [h] at heq; cases heq
  next other heq =>
      rw [h] at heq
      obtain rfl := Front.malformed.inj heq
      rfl
  next frame rest heq => rw [h] at heq; cases heq

theorem splitFrom_of_whole {frame rest : Bytes} (h : front data = .whole frame rest) :
    splitFrom dispatch s consumed data =
      if (dispatch s frame).2 then
        splitFrom dispatch (dispatch s frame).1 (consumed + frame.length) rest
      else ((dispatch s frame).1, .ok (consumed + frame.length)) := by
  rw [splitFrom]
  split
  next heq => rw [h] at heq; cases heq
  next size heq => rw [h] at heq; cases heq
  next other more heq =>
      rw [h] at heq
      obtain ⟨rfl, rfl⟩ := Front.whole.inj heq
      generalize dispatch s frame = result
      obtain ⟨s', goesOn⟩ := result
      cases goesOn <;> rfl

end Split

/-! ## What is built -/

theorem exists_build? (id : UInt16) {content : Bytes}
    (h : Header.length + content.length ≤ maxLength) : ∃ frame, build? id content = some frame :=
  ⟨_, by rw [build?, if_pos h]⟩

theorem length_of_build? {id : UInt16} {content frame : Bytes}
    (h : build? id content = some frame) :
    frame.length = Header.length + content.length := by
  simp only [build?] at h
  split at h
  · cases h
    simp [Header.length]
  · cases h

theorem length_le_of_build? {id : UInt16} {content frame : Bytes}
    (h : build? id content = some frame) : frame.length ≤ maxLength := by
  rw [length_of_build? h]
  simp only [build?] at h
  split at h
  next hfit => exact hfit
  next => cases h

theorem parse?_of_build? {id : UInt16} {content frame : Bytes}
    (h : build? id content = some frame) :
    Header.parse? frame = some ⟨UInt16.ofNat frame.length, id⟩ := by
  have hlen := length_of_build? h
  simp only [build?] at h
  split at h
  · cases h
    rw [Header.parse?_encode_append, hlen]
  · cases h

/-- What is built is a frame. -/
theorem isFrame_of_build? {id : UInt16} {content frame : Bytes}
    (h : build? id content = some frame) : IsFrame frame := by
  have hmax := length_le_of_build? h
  have hlen := length_of_build? h
  have hsize : (UInt16.ofNat frame.length).toNat = frame.length := by
    rw [UInt16.toNat_ofNat']
    exact Nat.mod_eq_of_lt (by rw [maxLength] at hmax; omega)
  have hfront := front_of_size_le_length (parse?_of_build? h)
    (show Header.length ≤ (UInt16.ofNat frame.length).toNat by omega)
    (show (UInt16.ofNat frame.length).toNat ≤ frame.length by omega)
  rw [hsize, List.take_length, List.drop_length] at hfront
  exact hfront

theorem fitIn_of_build? {limit : Nat} {id : UInt16} {content frame : Bytes}
    (h : build? id content = some frame) (hlimit : Header.length + content.length ≤ limit) :
    FitIn limit [frame] := by
  intro other hmem
  obtain rfl := List.mem_singleton.mp hmem
  refine ⟨isFrame_of_build? h, ?_⟩
  rw [length_of_build? h]
  exact hlimit

end Frame

end SessionEngine
