import SessionEngine.Proofs.Frame.Splitting
import SessionEngine.Stress.Message

/-!
# Load test messages come back

The messages of a load test are words, one after the other, and a payload
behind the words of a data frame. Words are read by their places
(`Bytes.word32_flatten`), so all fields of a message are read as they were
written (`Start.decode_of_build?`, `Data.decode_of_build?`,
`Result.decode_of_build?`). Of a payload its length comes back, which is what
was asked for but no more than the longest.

Any frame that is long enough is read, whatever its id: a message is what the
frame has at its places (`Start.decode_of_length_le`, `Data.decode_of_length_le`,
`Result.decode_of_length_le`).
-/

namespace SessionEngine

namespace Bytes

theorem length_flatten_ofWord32 (words : List UInt32) :
    (words.map ofWord32).flatten.length = 4 * words.length := by
  induction words with
  | nil => rfl
  | cons w words ih =>
      rw [List.map_cons, List.flatten_cons, List.length_append, length_ofWord32, ih,
        List.length_cons]
      omega

theorem word32_flatten (words : List UInt32) (rest : Bytes) {i : Nat} {w : UInt32}
    (h : words[i]? = some w) : word32 (4 * i) ((words.map ofWord32).flatten ++ rest) = w := by
  obtain ⟨hlt, heq⟩ := List.getElem?_eq_some_iff.mp h
  have hsplit : words = words.take i ++ w :: words.drop (i + 1) := by
    rw [← heq, List.getElem_cons_drop, List.take_append_drop]
  have hbytes : (words.map ofWord32).flatten ++ rest =
      ((words.take i).map ofWord32).flatten ++ ofWord32 w ++
        (((words.drop (i + 1)).map ofWord32).flatten ++ rest) := by
    conv => lhs; rw [hsplit]
    rw [List.map_append, List.map_cons, List.flatten_append, List.flatten_cons]
    simp only [List.append_assoc]
  rw [hbytes]
  refine word32_append _ _ w ?_
  rw [length_flatten_ofWord32, List.length_take, Nat.min_eq_left (Nat.le_of_lt hlt)]

theorem word32_drop (front offset : Nat) (bs : Bytes) :
    word32 offset (bs.drop front) = word32 (front + offset) bs := by
  rw [word32, word32, List.drop_drop]

end Bytes

namespace Stress

namespace Start

theorem body_eq_words (s : Start) :
    s.body = ([s.messageCount, s.messageSize, s.interval].map Bytes.ofWord32).flatten ++ [] := by
  simp [body]

theorem length_body (s : Start) : s.body.length = bodyLength := by
  rw [body_eq_words, List.append_nil, Bytes.length_flatten_ofWord32]
  rfl

theorem decode_of_build? {s : Start} {id : UInt16} {frame : Bytes}
    (h : Frame.build? id s.body = some frame) : decode frame = .ok s := by
  have hword : ∀ i w, [s.messageCount, s.messageSize, s.interval][i]? = some w →
      Bytes.word32 (4 * i) s.body = w := by
    intro i w hw
    rw [body_eq_words]
    exact Bytes.word32_flatten _ _ hw
  rw [decode, Frame.body_of_build? h (Nat.le_of_eq (length_body s).symm)]
  simp only [Except.map, hword 0 _ rfl, hword 1 _ rfl, hword 2 _ rfl]

theorem decode_of_length_le {frame : Bytes} (h : Header.length + bodyLength ≤ frame.length) :
    decode frame =
      .ok ⟨Bytes.word32 4 frame, Bytes.word32 8 frame, Bytes.word32 12 frame⟩ := by
  rw [decode, Frame.body_of_length_le h]
  simp only [Except.map, Bytes.word32_drop]
  rfl

end Start

namespace Data

theorem body_eq_words (d : Data) (payloadLength : Nat) :
    d.body payloadLength = ([d.sequence, d.timestamp].map Bytes.ofWord32).flatten ++
      payload (min payloadLength maxPayload) := by
  simp [body]

theorem length_body (d : Data) (payloadLength : Nat) :
    (d.body payloadLength).length = headLength + min payloadLength maxPayload := by
  rw [body_eq_words, List.length_append, Bytes.length_flatten_ofWord32, payload, List.length_map,
    List.length_range]
  rfl

theorem decode_of_build? {d : Data} {payloadLength : Nat} {id : UInt16} {frame : Bytes}
    (h : Frame.build? id (d.body payloadLength) = some frame) :
    decode frame = .ok (d, min payloadLength maxPayload) := by
  have hword : ∀ i w, [d.sequence, d.timestamp][i]? = some w →
      Bytes.word32 (4 * i) (d.body payloadLength) = w := by
    intro i w hw
    rw [body_eq_words]
    exact Bytes.word32_flatten _ _ hw
  have hlength := length_body d payloadLength
  rw [decode, Frame.body_of_build? h (by omega)]
  simp only [Except.map, hword 0 _ rfl, hword 1 _ rfl, hlength, Nat.add_sub_cancel_left]

theorem decode_of_length_le {frame : Bytes} (h : Header.length + headLength ≤ frame.length) :
    decode frame = .ok (⟨Bytes.word32 4 frame, Bytes.word32 8 frame⟩,
      frame.length - (Header.length + headLength)) := by
  rw [decode, Frame.body_of_length_le h]
  simp only [Except.map, Bytes.word32_drop, List.length_drop, Nat.sub_sub]
  rfl

end Data

namespace Result

def words (r : Result) : List UInt32 :=
  [r.total, r.received, r.lost, r.average, r.maximum, r.minimum, r.rate]

theorem body_eq_words (r : Result) : r.body = (r.words.map Bytes.ofWord32).flatten ++ [] := by
  simp [body, words]

theorem length_body (r : Result) : r.body.length = bodyLength := by
  rw [body_eq_words, List.append_nil, Bytes.length_flatten_ofWord32]
  rfl

theorem decode_of_build? {r : Result} {id : UInt16} {frame : Bytes}
    (h : Frame.build? id r.body = some frame) : decode frame = .ok r := by
  have hword : ∀ i w, r.words[i]? = some w → Bytes.word32 (4 * i) r.body = w := by
    intro i w hw
    rw [body_eq_words]
    exact Bytes.word32_flatten _ _ hw
  rw [decode, Frame.body_of_build? h (Nat.le_of_eq (length_body r).symm)]
  simp only [Except.map, hword 0 _ rfl, hword 1 _ rfl, hword 2 _ rfl, hword 3 _ rfl,
    hword 4 _ rfl, hword 5 _ rfl, hword 6 _ rfl]

def ofFrame (frame : Bytes) : Result where
  total := Bytes.word32 4 frame
  received := Bytes.word32 8 frame
  lost := Bytes.word32 12 frame
  average := Bytes.word32 16 frame
  maximum := Bytes.word32 20 frame
  minimum := Bytes.word32 24 frame
  rate := Bytes.word32 28 frame

theorem decode_of_length_le {frame : Bytes} (h : Header.length + bodyLength ≤ frame.length) :
    decode frame = .ok (ofFrame frame) := by
  rw [decode, Frame.body_of_length_le h]
  simp only [Except.map, Bytes.word32_drop]
  rfl

end Result

end Stress

end SessionEngine
