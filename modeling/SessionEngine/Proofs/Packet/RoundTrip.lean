import SessionEngine.Chat.Message
import SessionEngine.Proofs.SendPool.Live
import SessionEngine.Proofs.SendPool.Written
import SessionEngine.Proofs.Stress.Message
import SessionEngine.Proofs.Text.Cutting
import SessionEngine.Proofs.Transfer.Message

/-!
# Packets come back from the wire

All that is ever sent is one of seven kinds of packets, written as a frame
into the chunk of a context and read by the other side with the decoder of its
kind. Whatever was written before, into whatever chunks, the frame of a packet
is the same (`exists_write`), and what is read from it is the packet, apart
from texts that were cut and lengths that were capped (`comesBackAs_decode`).

`round_trip` says so of every context in every history of a pool.
-/

namespace SessionEngine

open Transfer (TransferId)

theorem Chat.decode_of_build? {id : UInt16} {text : String} {frame : Bytes}
    (h : Frame.build? id (body text) = some frame) :
    decode frame = .ok (id, Utf8.untilNul (Utf8.truncate 99 text)) := by
  have hfield : (body text).take fieldLength = body text :=
    List.take_of_length_le (Nat.le_of_eq (length_body text))
  have hfit : (Utf8.encode (Utf8.truncate 99 text)).length ≤ fieldLength :=
    Nat.le_trans (Utf8.length_encode_truncate_le 99 text) (by decide)
  have hneeded : fieldLength ≤ (body text).length := Nat.le_of_eq (length_body text).symm
  rw [decode, Frame.body_of_build? h hneeded]
  simp only [Except.map, hfield]
  rw [textOf, body]
  exact congrArg (fun read => Except.ok (id, read)) (Utf8.decodeLossy_field hfit)

/-! ## Packets -/

/-- What can be sent. -/
inductive Packet where
  | chat (id : UInt16) (text : String)
  | stressStart (start : Stress.Start)
  | stressData (data : Stress.Data) (payloadLength : Nat)
  | stressResult (result : Stress.Result)
  | request (request : Transfer.Request)
  | chunk (chunk : Transfer.Chunk) (payload : Bytes)
  | notice (kind : Transfer.Kind) (id : TransferId)

namespace Packet

def id : Packet → UInt16
  | chat id _ => id
  | stressStart _ => Stress.startId
  | stressData _ _ => Stress.dataId
  | stressResult _ => Stress.resultId
  | request _ => Transfer.Kind.request.id
  | chunk _ _ => Transfer.Kind.chunk.id
  | notice kind _ => kind.id

def body : Packet → Bytes
  | chat _ text => Chat.body text
  | stressStart s => s.body
  | stressData d payloadLength => d.body payloadLength
  | stressResult r => r.body
  | request r => r.body
  | chunk c payload => c.body payload
  | notice _ peer => Transfer.Notice.body peer

/-- Writes the frame in a context, or nothing. The payload of a chunk is
looked at before a region is asked for. -/
def write? (v : Packet) (p : SendPool) (cx : SendContext) :
    Option (SendBuffer × SendPool × SendContext) :=
  match v with
  | chunk _ payload =>
      if payload.length ≤ Transfer.Chunk.maxPayload then cx.putFrame? v.id v.body p else none
  | _ => cx.putFrame? v.id v.body p

/-- Writes the frame in a context: the buffer, if there is one, and what
becomes of the pool and the context. -/
def write (v : Packet) (p : SendPool) (cx : SendContext) :
    Option SendBuffer × SendPool × SendContext :=
  match v.write? p cx with
  | some (buffer, p', cx') => (some buffer, p', cx')
  | none => (none, p, cx)

inductive Shape where
  | chat
  | stressStart
  | stressData
  | stressResult
  | request
  | chunk
  | notice (kind : Transfer.Kind)

def shape : Packet → Shape
  | chat _ _ => .chat
  | stressStart _ => .stressStart
  | stressData _ _ => .stressData
  | stressResult _ => .stressResult
  | request _ => .request
  | chunk _ _ => .chunk
  | notice kind _ => .notice kind

def Shape.decode (frame : Bytes) : Shape → Except FrameError Packet
  | chat => (Chat.decode frame).map fun (id, text) => .chat id text
  | stressStart => (Stress.Start.decode frame).map .stressStart
  | stressData => (Stress.Data.decode frame).map fun (d, length) => .stressData d length
  | stressResult => (Stress.Result.decode frame).map .stressResult
  | request => (Transfer.Request.decode frame).map .request
  | chunk => (Transfer.Chunk.decode frame).map fun (c, payload) => .chunk c payload
  | notice kind => (Transfer.Notice.decode frame).map (.notice kind)

/-- What is read for what was written: texts are cut to their fields and end
in front of a zero character, payloads of load tests are capped, and the size
of a chunk is that of its payload. -/
inductive ComesBackAs : Packet → Packet → Prop
  | chat {id : UInt16} {text cut : String} (hcut : Utf8.IsCut 99 text cut) :
      ComesBackAs (.chat id text) (.chat id (Utf8.untilNul cut))
  | stressStart (start : Stress.Start) : ComesBackAs (.stressStart start) (.stressStart start)
  | stressData (data : Stress.Data) (payloadLength : Nat) :
      ComesBackAs (.stressData data payloadLength) (.stressData data (min payloadLength 4000))
  | stressResult (result : Stress.Result) :
      ComesBackAs (.stressResult result) (.stressResult result)
  | request {r : Transfer.Request} {cut : String} (hcut : Utf8.IsCut 255 r.fileName cut) :
      ComesBackAs (.request r) (.request { r with fileName := Utf8.untilNul cut })
  | chunk (c : Transfer.Chunk) (payload : Bytes) :
      ComesBackAs (.chunk c payload) (.chunk { c with size := UInt32.ofNat payload.length } payload)
  | notice (kind : Transfer.Kind) (id : TransferId) :
      ComesBackAs (.notice kind id) (.notice kind id)

/-! ## Reading -/

theorem payload_le_of_fits {c : Transfer.Chunk} {payload : Bytes}
    (h : Header.length + (c.body payload).length ≤ Frame.maxLength) :
    payload.length ≤ Transfer.Chunk.maxPayload := by
  rw [Transfer.Chunk.length_body] at h
  have hmax : Transfer.Chunk.maxPayload =
      Frame.maxLength - Header.length - Transfer.Chunk.headLength := rfl
  omega

theorem fits_of_build? {id : UInt16} {content frame : Bytes}
    (h : Frame.build? id content = some frame) :
    Header.length + content.length ≤ Frame.maxLength := by
  rw [← Frame.length_of_build? h]
  exact Frame.length_le_of_build? h

theorem comesBackAs_decode {v : Packet} {frame : Bytes}
    (h : Frame.build? v.id v.body = some frame) :
    ∃ v', v.ComesBackAs v' ∧ v.shape.decode frame = .ok v' := by
  cases v with
  | chat id text =>
      refine ⟨_, .chat (Utf8.isCut_truncate 99 text), ?_⟩
      rw [shape, Shape.decode, Chat.decode_of_build? h]
      rfl
  | stressStart start =>
      refine ⟨_, .stressStart start, ?_⟩
      rw [shape, Shape.decode, Stress.Start.decode_of_build? h]
      rfl
  | stressData data payloadLength =>
      refine ⟨_, .stressData data payloadLength, ?_⟩
      rw [shape, Shape.decode, Stress.Data.decode_of_build? h]
      rfl
  | stressResult result =>
      refine ⟨_, .stressResult result, ?_⟩
      rw [shape, Shape.decode, Stress.Result.decode_of_build? h]
      rfl
  | request r =>
      refine ⟨_, .request (Utf8.isCut_truncate 255 r.fileName), ?_⟩
      rw [shape, Shape.decode, Transfer.Request.decode_of_build?_untilNul h]
      rfl
  | chunk c payload =>
      have hframe : c.frame? payload = some frame := by
        have hfit : payload.length ≤ Transfer.Chunk.maxPayload :=
          payload_le_of_fits (fits_of_build? h)
        rw [Transfer.Chunk.frame?, if_pos hfit]
        exact h
      refine ⟨_, .chunk c payload, ?_⟩
      rw [shape, Shape.decode, Transfer.Chunk.decode_of_frame? hframe]
      rfl
  | notice kind id =>
      refine ⟨_, .notice kind id, ?_⟩
      rw [shape, Shape.decode, Transfer.Notice.decode_of_build? h]
      rfl

/-! ## Writing -/

theorem write?_of_fits {v : Packet} (h : Header.length + v.body.length ≤ Frame.maxLength)
    (p : SendPool) (cx : SendContext) : v.write? p cx = cx.putFrame? v.id v.body p := by
  cases v with
  | chunk c payload =>
      have hfit : payload.length ≤ Transfer.Chunk.maxPayload := payload_le_of_fits h
      exact if_pos hfit
  | _ => rfl

theorem write_of_not_fits {v : Packet} (h : Frame.maxLength < Header.length + v.body.length)
    (p : SendPool) (cx : SendContext) : v.write p cx = (none, p, cx) := by
  have hput : cx.putFrame? v.id v.body p = none := by
    rw [SendContext.putFrame?, Frame.build?, if_neg (by omega)]
  have hwrite : v.write? p cx = none := by
    cases v with
    | chunk c payload =>
        by_cases hfit : payload.length ≤ Transfer.Chunk.maxPayload
        · exact (if_pos hfit).trans hput
        · exact if_neg hfit
    | _ => exact hput
  rw [write, hwrite]

theorem exists_write {v : Packet} {frame : Bytes} (h : Frame.build? v.id v.body = some frame)
    {p : SendPool} {cx : SendContext} (hp : p.WellFormed)
    (hcurrent : ∀ chunk ∈ cx.current, chunk < p.created) :
    ∃ buffer p' cx', v.write p cx = (some buffer, p', cx') ∧ p'.read buffer = frame := by
  obtain ⟨buffer, p', cx', hput, hread⟩ :=
    SendContext.read_of_putFrame? hp hcurrent h (Frame.length_le_of_build? h)
  refine ⟨buffer, p', cx', ?_, hread⟩
  rw [write, write?_of_fits (fits_of_build? h), hput]

/-- In every context of every history of a pool, a packet is written exactly
if it fits, as a frame that depends on the packet alone and from which it
comes back; one that does not fit leaves pool and context as they were. -/
theorem round_trip {steps : List Writing.Step} {name : String} {cx : SendContext}
    (hcx : (Writing.empty.run steps).sending.contexts.get? name = some cx) (v : Packet) :
    let p := (Writing.empty.run steps).sending.pool
    (Header.length + v.body.length ≤ 6000 →
      ∃ frame, Frame.build? v.id v.body = some frame ∧
        (∃ buffer p' cx', v.write p cx = (some buffer, p', cx') ∧ p'.read buffer = frame) ∧
        (∃ header, Header.parse? frame = some header ∧ header.size.toNat = frame.length ∧
          header.id = v.id) ∧
        ∃ v', v.ComesBackAs v' ∧ v.shape.decode frame = .ok v') ∧
    (6000 < Header.length + v.body.length → v.write p cx = (none, p, cx)) := by
  have hsound := Writing.sound_empty.run steps
  have hcurrent : ∀ chunk ∈ cx.current, chunk < (Writing.empty.run steps).sending.pool.created := by
    intro chunk hchunk
    refine hsound.room.owned.lt_created chunk (List.mem_append_left _ ?_)
    exact List.mem_filterMap.mpr ⟨_, Table.mem_of_get? hcx, hchunk⟩
  refine ⟨fun hfits => ?_, fun hlong => write_of_not_fits hlong _ _⟩
  obtain ⟨frame, hframe⟩ := Frame.exists_build? v.id hfits
  have hsize : (UInt16.ofNat frame.length).toNat = frame.length := by
    have hmax := Frame.length_le_of_build? hframe
    rw [UInt16.toNat_ofNat']
    refine Nat.mod_eq_of_lt (Nat.lt_of_le_of_lt hmax ?_)
    decide
  exact ⟨frame, hframe, exists_write hframe hsound.room.chunks hcurrent,
    ⟨_, Frame.parse?_of_build? hframe, hsize, rfl⟩, comesBackAs_decode hframe⟩

/-- A chunk goes back to the pool with what a context wrote into it, and another
context gets it and cuts a buffer off its front. -/
def recycling : List Writing.Step :=
  [.context "first", .openRegion "first" 8, .write "first" 4 [255, 255, 255, 255],
    .close "first" 8 "sent", .dropContext "first", .dropBuffer "sent",
    .context "main", .openRegion "main" 4, .close "main" 4 "held"]

/-- A message is written over what was left in the chunk. -/
theorem round_trip_hello :
    (Writing.empty.run recycling).sending.contexts.get? "main" = some ⟨some 0⟩ ∧
      ((Writing.empty.run recycling).sending.pool.chunks[0]?).map (SendChunk.region 4) =
        some [255, 255, 255, 255] ∧
      ∃ buffer p' cx', (chat 1 "hello").write (Writing.empty.run recycling).sending.pool ⟨some 0⟩ =
          (some buffer, p', cx') ∧
        ∃ v', (chat 1 "hello").ComesBackAs v' ∧ Shape.chat.decode (p'.read buffer) = .ok v' := by
  have hcx : (Writing.empty.run recycling).sending.contexts.get? "main" = some ⟨some 0⟩ := by
    decide +kernel
  have hleft : ((Writing.empty.run recycling).sending.pool.chunks[0]?).map (SendChunk.region 4) =
      some [255, 255, 255, 255] := by
    decide +kernel
  obtain ⟨frame, -, ⟨buffer, p', cx', hwrite, rfl⟩, -, hback⟩ :=
    (round_trip hcx (chat 1 "hello")).1 (by decide)
  exact ⟨hcx, hleft, buffer, p', cx', hwrite, hback⟩

end Packet

end SessionEngine
