import SessionEngine.Proofs.Frame.Front
import SessionEngine.Proofs.Text.Cutting
import SessionEngine.Transfer.Endpoint

/-!
# File transfer messages come back

What the other side reads from a frame is what was put into it. Of a name,
that is the part that fits into its field (`Request.decode_of_build?`); of the
size of a chunk, the length of the payload (`Chunk.decode_of_frame?`).
-/

namespace SessionEngine

namespace Transfer

theorem kindOf?_of_build? {kind : Kind} {content frame : Bytes}
    (h : Frame.build? kind.id content = some frame) : Endpoint.kindOf? frame = some kind := by
  rw [Endpoint.kindOf?, Frame.parse?_of_build? h]
  exact Kind.ofId?_id kind

/-! ## Requests -/

namespace Request

@[simp] theorem length_body (r : Request) : r.body.length = bodyLength := by
  simp only [body, List.length_append, Bytes.length_padTo, Bytes.length_ofWord64,
    Bytes.length_ofWord32, bodyLength]

theorem exists_frame (r : Request) :
    ∃ frame, Frame.build? Kind.request.id r.body = some frame := by
  refine Frame.exists_build? _ ?_
  rw [length_body]
  decide

/-- The name that arrives: what fits into its field with a zero byte behind. -/
def sentName (name : String) : String := Utf8.truncate (nameLength - 1) name

/-- All fields arrive but the name, of which there may be less. -/
theorem decode_of_build?_untilNul {r : Request} {frame : Bytes}
    (h : Frame.build? Kind.request.id r.body = some frame) :
    decode frame = .ok { r with fileName := Utf8.untilNul (sentName r.fileName) } := by
  have hname : r.body.take nameLength =
      Bytes.padTo nameLength (Utf8.encode (sentName r.fileName)) := by
    rw [body, List.append_assoc, List.append_assoc, List.append_assoc]
    exact List.take_left' (Bytes.length_padTo _ _)
  have hfit : (Utf8.encode (sentName r.fileName)).length ≤ nameLength :=
    Nat.le_trans (Utf8.length_encode_truncate_le (nameLength - 1) r.fileName) (by decide)
  have hsize : Bytes.word64 nameLength r.body = r.fileSize := by
    rw [body, List.append_assoc, List.append_assoc]
    exact Bytes.word64_append _ _ _ (Bytes.length_padTo _ _)
  have htotal : Bytes.word32 (nameLength + 8) r.body = r.chunksTotal := by
    rw [body, List.append_assoc _ (Bytes.ofWord32 r.chunkSize)]
    exact Bytes.word32_append _ _ _ (by simp)
  have hchunk : Bytes.word32 (nameLength + 12) r.body = r.chunkSize := by
    rw [body]
    exact Bytes.word32_append _ _ _ (by simp)
  have hid : Bytes.word32 (nameLength + 16) r.body = r.id := by
    rw [body, ← List.append_nil (_ ++ Bytes.ofWord32 r.id)]
    exact Bytes.word32_append _ _ _ (by simp)
  rw [decode, Frame.body_of_build? h (Nat.le_of_eq (length_body r).symm)]
  simp only [Except.map, hname, Utf8.decodeLossy_field hfit, hsize, htotal, hchunk, hid]

theorem decode_of_build? {r : Request} {frame : Bytes} (hnul : '\x00' ∉ r.fileName.toList)
    (h : Frame.build? Kind.request.id r.body = some frame) :
    decode frame = .ok { r with fileName := sentName r.fileName } := by
  have hsent : '\x00' ∉ (sentName r.fileName).toList :=
    fun hmem => hnul ((Utf8.truncate_prefix _ r.fileName).subset hmem)
  rw [decode_of_build?_untilNul h, Utf8.untilNul_eq_self hsent]

end Request

/-! ## Chunks -/

namespace Chunk

theorem length_body (c : Chunk) (payload : Bytes) :
    (c.body payload).length = headLength + payload.length := by
  simp only [body, List.length_append, Bytes.length_ofWord32, List.length_singleton, headLength]

theorem exists_frame? {payload : Bytes} (c : Chunk) (h : payload.length ≤ maxPayload) :
    ∃ frame, c.frame? payload = some frame := by
  rw [frame?, if_pos h]
  refine Frame.exists_build? _ ?_
  rw [length_body]
  have hmax : maxPayload = Frame.maxLength - Header.length - headLength := rfl
  have hroom : Header.length + headLength ≤ Frame.maxLength := by decide
  omega

theorem build?_of_frame? {c : Chunk} {payload frame : Bytes} (h : c.frame? payload = some frame) :
    payload.length ≤ maxPayload ∧ Frame.build? Kind.chunk.id (c.body payload) = some frame := by
  rw [frame?] at h
  split at h
  next hfit => exact ⟨hfit, h⟩
  next => cases h

theorem decode_of_frame? {c : Chunk} {payload frame : Bytes} (h : c.frame? payload = some frame) :
    decode frame = .ok ({ c with size := UInt32.ofNat payload.length }, payload) := by
  obtain ⟨hfit, hbuild⟩ := build?_of_frame? h
  have hid : Bytes.word32 0 (c.body payload) = c.id := by
    rw [body, List.append_assoc, List.append_assoc, List.append_assoc]
    exact Bytes.word32_append [] _ _ rfl
  have hindex : Bytes.word32 4 (c.body payload) = c.index := by
    rw [body, List.append_assoc, List.append_assoc]
    exact Bytes.word32_append _ _ _ (by simp)
  have hsize : Bytes.word32 8 (c.body payload) = UInt32.ofNat payload.length := by
    rw [body, List.append_assoc]
    exact Bytes.word32_append _ _ _ (by simp)
  have hfields : (Bytes.ofWord32 c.id ++ Bytes.ofWord32 c.index ++
      Bytes.ofWord32 (UInt32.ofNat payload.length)).length = 12 := by simp
  have hlast : (c.body payload)[12]? = some (if c.isLast then 1 else 0) := by
    rw [body, List.append_assoc, List.getElem?_append_right (Nat.le_of_eq hfields), hfields]
    rfl
  have hrest : (c.body payload).drop headLength = payload := by
    rw [body]
    exact List.drop_left' (by rw [List.length_append, hfields]; rfl)
  have hlength : (UInt32.ofNat payload.length).toNat = payload.length := by
    rw [UInt32.toNat_ofNat']
    have hmax : maxPayload < 2 ^ 32 := by decide
    exact Nat.mod_eq_of_lt (Nat.lt_of_le_of_lt hfit hmax)
  rw [decode, Frame.body_of_build? hbuild (by rw [length_body]; omega)]
  simp only [hid, hindex, hsize, hlast, hrest, hlength, Nat.lt_irrefl, if_false,
    List.take_length, Option.any_some]
  cases c.isLast <;> rfl

end Chunk

/-! ## Notices -/

namespace Notice

theorem exists_frame (kind : Kind) (id : TransferId) :
    ∃ frame, Frame.build? kind.id (body id) = some frame := by
  refine Frame.exists_build? _ ?_
  rw [body, Bytes.length_ofWord32]
  decide

theorem decode_of_build? {kind : Kind} {id : TransferId} {frame : Bytes}
    (h : Frame.build? kind.id (body id) = some frame) : decode frame = .ok id := by
  have hid : Bytes.word32 0 (body id) = id := by
    rw [body, ← List.append_nil (Bytes.ofWord32 id)]
    exact Bytes.word32_append [] [] _ rfl
  rw [decode, Frame.body_of_build? h (by rw [body, Bytes.length_ofWord32]; decide)]
  simp only [Except.map, hid]

def frame (kind : Kind) (id : TransferId) : Bytes :=
  (Frame.build? kind.id (body id)).getD []

theorem build?_eq_frame (kind : Kind) (id : TransferId) :
    Frame.build? kind.id (body id) = some (frame kind id) := by
  obtain ⟨built, hbuilt⟩ := exists_frame kind id
  rw [frame, hbuilt, Option.getD_some]

theorem notify_eq (kind : Kind) (id : TransferId) :
    Endpoint.notify kind id = [.send (frame kind id)] := by
  rw [Endpoint.notify, build?_eq_frame]
  rfl

end Notice

end Transfer

end SessionEngine
