import SessionEngine.Chat.Handler
import SessionEngine.Proofs.Packet.RoundTrip
import SessionEngine.Proofs.Session.Answering

/-!
# What the echo answers

The echo answers a message with one reply, whatever bytes are in its field, and
the reply is the field as text with a mark in front, cut to what fits
(`IsReply`). A full frame with another id has no answer, and the first frame
that is too short for a text is the last (`Echoes`, `echoes_echo`).

No zero character is ever read from a field, so a reply is read to its end.
-/

namespace SessionEngine

namespace Chat

/-! ## The frames of a chat -/

/-- Long enough for a text. -/
def IsFull (frame : Bytes) : Prop := Header.length + fieldLength ≤ frame.length

/-- Long enough for a text, and marked as what somebody says. -/
def IsMessage (frame : Bytes) : Prop := IsFull frame ∧ Bytes.word16 2 frame = messageId

instance : DecidablePred IsFull := fun _ => inferInstanceAs (Decidable (_ ≤ _))

instance : DecidablePred IsMessage := fun _ => inferInstanceAs (Decidable (_ ∧ _))

def field (frame : Bytes) : Bytes := (frame.drop Header.length).take fieldLength

/-- A frame that answers a message: it carries what the field says, with the
mark in front. -/
structure IsReply (message reply : Bytes) : Prop where
  length_eq : reply.length = 104
  isFrame : Frame.IsFrame reply
  decode_eq : ∃ text, decode reply = .ok (2, text) ∧
    Utf8.IsCut 99 ("echo: " ++ Utf8.decodeLossy (Bytes.beforeNul (field message))) text

/-- What the echo asks for over a frame. -/
structure Echoes (frame : Bytes) (answer : List Action) : Prop where
  message : IsMessage frame → ∃ reply, IsReply frame reply ∧ answer = [.send reply]
  other : IsFull frame → ¬ IsMessage frame → answer = []
  short : ¬ IsFull frame → answer = [.disconnect]

theorem decode_of_isFull {frame : Bytes} (h : IsFull frame) :
    decode frame = .ok (Bytes.word16 2 frame, textOf (field frame)) := by
  rw [decode, Frame.body_of_length_le h]
  rfl

theorem exists_error_of_not_isFull {frame : Bytes} (h : ¬ IsFull frame) :
    ∃ error, decode frame = .error error :=
  Frame.exists_error_map_of_length_lt (Nat.lt_of_not_le h) _

/-! ## Replies -/

/-- A frame of a chat with any text. -/
theorem exists_frame (id : UInt16) (text : String) :
    ∃ frame, Frame.build? id (body text) = some frame ∧ Frame.IsFrame frame ∧
      frame.length = 104 ∧ decode frame = .ok (id, Utf8.untilNul (Utf8.truncate 99 text)) := by
  have hfit : Header.length + (body text).length ≤ Frame.maxLength := by
    rw [length_body]
    decide
  obtain ⟨frame, hframe⟩ := Frame.exists_build? id hfit
  refine ⟨frame, hframe, Frame.isFrame_of_build? hframe, ?_, decode_of_build? hframe⟩
  rw [Frame.length_of_build? hframe, length_body]
  rfl

theorem nul_notMem_echoMark_append {text : String} (h : '\x00' ∉ text.toList) :
    '\x00' ∉ (echoMark ++ text).toList := by
  rw [String.toList_append, List.mem_append, not_or]
  exact ⟨by decide, h⟩

/-- A text without a zero character is read as it was cut. -/
theorem untilNul_truncate {limit : Nat} {text : String} (h : '\x00' ∉ text.toList) :
    Utf8.untilNul (Utf8.truncate limit text) = Utf8.truncate limit text := by
  have hstarts := Utf8.truncate_prefix limit text
  exact Utf8.untilNul_eq_self fun hmem => h (hstarts.subset hmem)

/-- The answer to a text without a zero character. -/
theorem exists_reply {text : String} (h : '\x00' ∉ text.toList) :
    ∃ reply, sending (Frame.build? replyId (body (echoMark ++ text))) = [.send reply] ∧
      Frame.IsFrame reply ∧ reply.length = 104 ∧
      decode reply = .ok (replyId, Utf8.truncate 99 (echoMark ++ text)) := by
  obtain ⟨reply, hbuild, hframe, hlength, hdecode⟩ := exists_frame replyId (echoMark ++ text)
  refine ⟨reply, ?_, hframe, hlength, ?_⟩
  · rw [hbuild]
    rfl
  · rw [hdecode, untilNul_truncate (nul_notMem_echoMark_append h)]

theorem nul_notMem_textOf (bs : Bytes) : '\x00' ∉ (textOf bs).toList := by
  have hzero : (0 : UInt8) ∉ Bytes.beforeNul bs := by
    intro hmem
    have hne := List.mem_takeWhile_imp hmem
    exact absurd hne (by decide)
  rw [textOf, Utf8.decodeLossy, String.toList_ofList]
  exact Utf8.nul_notMem_decodeChars hzero

theorem echo_of_decode {frame : Bytes} {text : String} (h : decode frame = .ok (messageId, text)) :
    echo frame = sending (Frame.build? replyId (body (echoMark ++ text))) := by
  rw [echo, h]
  exact if_pos rfl

theorem echoes_echo (frame : Bytes) : Echoes frame (echo frame) where
  message := by
    rintro ⟨hfull, hid⟩
    obtain ⟨reply, hsending, hframe, hlength, hdecode⟩ :=
      exists_reply (nul_notMem_textOf (field frame))
    have hmessage := decode_of_isFull hfull
    rw [hid] at hmessage
    exact ⟨reply, ⟨hlength, hframe, _, hdecode, Utf8.isCut_truncate _ _⟩,
      (echo_of_decode hmessage).trans hsending⟩
  other := by
    intro hfull hnot
    rw [echo, decode_of_isFull hfull]
    exact if_neg fun hid => hnot ⟨hfull, hid⟩
  short := by
    intro hshort
    obtain ⟨error, herror⟩ := exists_error_of_not_isFull hshort
    rw [echo, herror]

theorem closes_echo_iff (frame : Bytes) : Action.closes (echo frame) = true ↔ ¬ IsFull frame := by
  have hechoes := echoes_echo frame
  by_cases hfull : IsFull frame
  · by_cases hmessage : IsMessage frame
    · obtain ⟨reply, -, hanswer⟩ := hechoes.message hmessage
      have hopen : Action.closes [.send reply] = false := rfl
      rw [hanswer, hopen]
      exact iff_of_false Bool.false_ne_true (not_not_intro hfull)
    · rw [hechoes.other hfull hmessage]
      exact iff_of_false (by decide) (not_not_intro hfull)
  · rw [hechoes.short hfull]
    exact iff_of_true rfl hfull

/-! ## Sessions -/

theorem closed_of_isFull {frames : List Bytes} (hframes : ∀ frame ∈ frames, IsFull frame)
    (answers : Nat) : Reaction.closed echoHandler.packet frames answers = false := by
  induction frames generalizing answers with
  | nil => rfl
  | cons frame frames ih =>
      have hopen : Action.closes (echoHandler.packet frame answers).2 = false := by
        rw [← Bool.not_eq_true]
        exact mt (closes_echo_iff frame).mp (not_not_intro (hframes frame List.mem_cons_self))
      rw [Reaction.closed_cons, hopen, Bool.false_or]
      exact ih (fun other hmem => hframes other (List.mem_cons_of_mem _ hmem)) _

/-- What a session and its echo make of a stream of bytes, on a connection that
can carry frames of `limit` bytes. The log has every frame that the echo was
shown, with the answer. -/
structure Echoed (limit : Nat) (stream : Bytes) (before after : Session Nat)
    (log : List (Bytes × List Action)) : Prop where
  answers : ∀ {frame answer}, (frame, answer) ∈ log → Echoes frame answer
  sent_eq : after.sent = before.sent ++ log.flatMap fun entry => Action.frames entry.2
  /-- Full frames at the front of the stream are all shown. -/
  shown : ∀ {frames behind}, Frame.FitIn limit frames → frames.flatten ++ behind = stream →
    (∀ frame ∈ frames, IsFull frame) → frames <+: log.map Prod.fst
  /-- The first other frame is the last that is shown. -/
  ended : ∀ {frames frame behind}, Frame.FitIn limit (frames ++ [frame]) →
    (frames ++ [frame]).flatten ++ behind = stream → (∀ frame ∈ frames, IsFull frame) →
      ¬ IsFull frame → log.map Prod.fst = frames ++ [frame] ∧ after.phase = .disconnected
  connected : ∀ {frames}, Frame.FitIn limit frames → frames.flatten = stream →
    (∀ frame ∈ frames, IsFull frame) → log.map Prod.fst = frames ∧ after.isConnected = true

theorem echoed_receiveAll {B : Nat} (hB : 0 < B) {s : Session Nat} (hs : s.isConnected = true)
    (hbuffer : s.buffer = .empty B) {reads : List Bytes}
    (hreads : s.Admits echoHandler.session reads) :
    let log := Reaction.log echoHandler.packet (s.dispatched echoHandler reads) s.state
    log.map Prod.fst = s.dispatched echoHandler reads ∧
      Echoed (10 * B) reads.flatten s (s.receiveAll echoHandler.session reads) log := by
  obtain ⟨hshown, hanswered⟩ := Session.answered_receiveAll echoHandler hB hs hbuffer hreads
  refine ⟨hshown, ?_, hanswered.sent_eq, ?_, ?_, ?_⟩
  · intro frame answer hmem
    obtain ⟨answers, rfl⟩ := hanswered.answers hmem
    exact echoes_echo frame
  · intro frames behind hfit hstream hframes
    exact hanswered.shown hfit (closed_of_isFull hframes _) hstream
  · intro frames frame behind hfit hstream hframes hshort
    exact hanswered.ended hfit (closed_of_isFull hframes _) ((closes_echo_iff frame).mpr hshort)
      hstream
  · intro frames hfit hstream hframes
    exact hanswered.connected hfit (closed_of_isFull hframes _) hstream

end Chat

end SessionEngine
