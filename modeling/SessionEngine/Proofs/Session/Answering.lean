import SessionEngine.Proofs.Session.Segmentation
import SessionEngine.Proofs.Session.Transcript

/-!
# A session answers frame by frame

However the bytes of a connection are cut, a handler of frames answers the
frames of the stream one after the other, and what it answers is sent
(`answered_receiveAll`). Whole frames at the front of the stream are all
answered as long as no answer closes the connection, and one that does is the
last.
-/

namespace SessionEngine

namespace Session

variable {σ : Type}

/-- What a session makes of a stream, on a connection that can carry frames of
`limit` bytes. The log has every frame that the handler was shown, with the
answer. -/
structure Answered (h : PacketHandler σ) (limit : Nat) (stream : Bytes) (before after : Session σ)
    (log : List (Bytes × List Action)) : Prop where
  answers : ∀ {frame answer}, (frame, answer) ∈ log → ∃ s, answer = (h.packet frame s).2
  sent_eq : after.sent = before.sent ++ log.flatMap fun entry => Action.frames entry.2
  shown : ∀ {frames behind}, Frame.FitIn limit frames →
    Reaction.closed h.packet frames before.state = false → frames.flatten ++ behind = stream →
      frames <+: log.map Prod.fst
  ended : ∀ {frames frame behind}, Frame.FitIn limit (frames ++ [frame]) →
    Reaction.closed h.packet frames before.state = false →
      Action.closes (h.packet frame (Reaction.after h.packet frames before.state)).2 = true →
        (frames ++ [frame]).flatten ++ behind = stream →
          log.map Prod.fst = frames ++ [frame] ∧ after.phase = .disconnected
  connected : ∀ {frames}, Frame.FitIn limit frames →
    Reaction.closed h.packet frames before.state = false → frames.flatten = stream →
      log.map Prod.fst = frames ∧ after.isConnected = true

theorem answered_receiveAll (h : PacketHandler σ) {B : Nat} (hB : 0 < B) {s : Session σ}
    (hs : s.isConnected = true) (hbuffer : s.buffer = .empty B) {reads : List Bytes}
    (hreads : s.Admits h.session reads) :
    let log := Reaction.log h.packet (s.dispatched h reads) s.state
    log.map Prod.fst = s.dispatched h reads ∧
      Answered h (10 * B) reads.flatten s (s.receiveAll h.session reads) log := by
  have hready := ready_of_empty (isConnected_eq_true_iff.mp hs) hbuffer hB
  have hdata : s.buffer.data = [] := by
    rw [hbuffer, ReceiveBuffer.data_empty]
  have hcapacity : s.buffer.capacity = 10 * B := by
    rw [hbuffer, ReceiveBuffer.capacity_empty, ReceiveBuffer.readsHeld]
  have hrun := receiveAll_eq_scan h hready (by rw [hdata, Frame.front_nil])
    (by rw [hdata]; exact hready.capacity_pos) hreads
  rw [hdata, List.nil_append, hcapacity] at hrun
  obtain ⟨hshown, hactions⟩ := h.scan_frames (10 * B) s.state reads.flatten
  intro log
  have hlog : log.map Prod.fst = (h.scan (10 * B) s.state reads.flatten).frames := by
    show Reaction.shown _ _ _ = _
    rw [hrun.dispatched_eq, hshown]
  refine ⟨by rw [hlog, hrun.dispatched_eq], Reaction.exists_of_mem_log, ?_, ?_, ?_, ?_⟩
  · rw [hrun.sent_eq, ← hactions, Reaction.frames_actions, ← hrun.dispatched_eq]
  · rintro frames behind hfit hopen hstream
    rw [hlog, ← hstream, (h.scan_flatten_append hfit hopen behind).1]
    exact ⟨_, rfl⟩
  · rintro frames frame behind hfit hopen hcloses hstream
    obtain ⟨hframes, hended⟩ := h.scan_flatten_of_closes hfit hopen hcloses behind
    rw [hstream] at hframes hended
    exact ⟨hlog.trans hframes, (hrun.ended _ hended).phase_eq⟩
  · rintro frames hfit hopen hstream
    obtain ⟨hframes, hconnected⟩ := h.scan_flatten (Nat.mul_pos (by decide) hB) hfit hopen
    rw [hstream] at hframes hconnected
    exact ⟨hlog.trans hframes,
      isConnected_eq_true_iff.mpr (hrun.connected _ hconnected).1.phase_eq⟩

end Session

end SessionEngine
