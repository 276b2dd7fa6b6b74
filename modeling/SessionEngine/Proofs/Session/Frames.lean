import SessionEngine.Proofs.Session.Transcript

/-!
# Reading well-formed frames

What is under way to a session that keeps up is a list of whole frames, cut
anywhere. A property of the handler, the frames that it has not been shown and
the frames that it has sent holds after a read if showing one frame keeps it
(`receive_of_frames`): how the bytes were cut does not matter, and the bytes
left unread are the beginning of the frames that were not shown.
-/

namespace SessionEngine

namespace Action

theorem closes_map_send (frames : List Bytes) : closes (frames.map .send) = false := by
  induction frames with
  | nil => rfl
  | cons frame frames ih => exact ih

theorem frames_map_send (sent : List Bytes) : frames (sent.map .send) = sent := by
  induction sent with
  | nil => rfl
  | cons frame sent ih => exact congrArg (frame :: ·) ih

end Action

namespace Frame

/-- Frames of a length that every connection can carry. -/
def AreFrames (frames : List Bytes) : Prop :=
  ∀ frame ∈ frames, IsFrame frame ∧ frame.length ≤ maxLength

theorem areFrames_nil : AreFrames [] := fun _ hmem => absurd hmem List.not_mem_nil

theorem AreFrames.append {frames more : List Bytes} (h : AreFrames frames)
    (hmore : AreFrames more) : AreFrames (frames ++ more) := by
  intro frame hmem
  rcases List.mem_append.mp hmem with hbefore | hbehind
  · exact h frame hbefore
  · exact hmore frame hbehind

theorem areFrames_of_build? {id : UInt16} {content frame : Bytes}
    (h : build? id content = some frame) : AreFrames [frame] := by
  intro other hmem
  obtain rfl := List.mem_singleton.mp hmem
  exact ⟨isFrame_of_build? h, length_le_of_build? h⟩

theorem AreFrames.length_flatten_le {frames : List Bytes} (h : AreFrames frames) :
    frames.flatten.length ≤ maxLength * frames.length := by
  induction frames with
  | nil => exact Nat.zero_le _
  | cons frame frames ih =>
      have hfirst := (h frame List.mem_cons_self).2
      have hrest := ih fun other hmem => h other (List.mem_cons_of_mem _ hmem)
      rw [List.flatten_cons, List.length_append, List.length_cons, Nat.mul_succ]
      omega

/-- Bytes that wait for more are no whole frames. -/
theorem AreFrames.eq_nil {frames : List Bytes} (h : AreFrames frames)
    (hfront : front frames.flatten = .incomplete) : frames = [] := by
  have hfit : FitIn maxLength frames := h
  exact hfit.eq_nil hfront

end Frame

/-- Showing one frame keeps the connection open and keeps the property, whose
last argument is what the handler has sent. -/
def PacketHandler.Keeps {σ : Type} (h : PacketHandler σ)
    (P : σ → List Bytes → List Bytes → Prop) : Prop :=
  ∀ s frame frames sent, P s (frame :: frames) sent →
    Action.closes (h.packet frame s).2 = false ∧
      P (h.packet frame s).1 frames (sent ++ Action.frames (h.packet frame s).2)

namespace PacketHandler

variable {σ : Type}

theorem Keeps.closed_eq_false {h : PacketHandler σ} {P : σ → List Bytes → List Bytes → Prop}
    (hkeeps : h.Keeps P) {s : σ} {frames sent : List Bytes} (hP : P s frames sent) :
    Reaction.closed h.packet frames s = false := by
  induction frames generalizing s sent with
  | nil => rfl
  | cons frame frames ih =>
      obtain ⟨hopen, hnext⟩ := hkeeps s frame frames sent hP
      rw [Reaction.closed_cons, hopen, ih hnext, Bool.or_false]

theorem Keeps.after {h : PacketHandler σ} {P : σ → List Bytes → List Bytes → Prop}
    (hkeeps : h.Keeps P) {s : σ} {shown rest sent : List Bytes} (hP : P s (shown ++ rest) sent) :
    P (Reaction.after h.packet shown s) rest
      (sent ++ Action.frames (Reaction.actions h.packet shown s)) := by
  induction shown generalizing s sent with
  | nil =>
      rw [show Reaction.actions h.packet [] s = [] from rfl, Action.frames, List.append_nil]
      exact hP
  | cons frame shown ih =>
      obtain ⟨hopen, hnext⟩ := hkeeps s frame (shown ++ rest) sent hP
      rw [Reaction.after_of_open _ _ hopen, Reaction.actions_of_open _ _ hopen,
        Action.frames_append _ hopen, ← List.append_assoc]
      exact ih hnext

/-- Scanning the beginning of some frames shows the first of them, and waits
within the next. -/
theorem scan_of_frames (h : PacketHandler σ) {limit : Nat} (hlimit : Frame.maxLength ≤ limit)
    {P : σ → List Bytes → List Bytes → Prop} (hkeeps : h.Keeps P) {s : σ}
    {frames sent : List Bytes} (hframes : Frame.AreFrames frames) (hP : P s frames sent)
    {data more : Bytes} (hdata : data ++ more = frames.flatten) :
    ∃ unread rest, (h.scan limit s data).verdict = .connected unread ∧
      Frame.front unread = .incomplete ∧ unread ++ more = rest.flatten ∧
      P (h.scan limit s data).state rest (sent ++ Action.frames (h.scan limit s data).actions) := by
  have hmax : 0 < limit := Nat.lt_of_lt_of_le (by decide) hlimit
  have hfit : Frame.FitIn limit frames := Frame.FitIn.mono hlimit hframes
  obtain ⟨shown, rest, unread, rfl, -, hpending, hwait, hscan⟩ :=
    h.scan_of_open hmax hfit (hkeeps.closed_eq_false hP) hdata
  rw [hscan]
  exact ⟨unread, rest, rfl, hwait, hpending, hkeeps.after hP⟩

end PacketHandler

namespace Session

variable {σ : Type}

/-- A session that waits for the rest of a frame, with room for the longest. -/
structure Waiting (s : Session σ) : Prop where
  ready : s.Ready
  room : 0 < s.buffer.free
  capacity : Frame.maxLength ≤ s.buffer.capacity
  front : Frame.front s.buffer.data = .incomplete

/-- A read of a session to which frames are under way. -/
theorem receive_of_frames (h : PacketHandler σ) {s : Session σ} (hs : s.Waiting)
    {P : σ → List Bytes → List Bytes → Prop} (hkeeps : h.Keeps P) {frames : List Bytes}
    (hframes : Frame.AreFrames frames) (hP : P s.state frames s.sent) {bytes more : Bytes}
    (hfit : bytes.length ≤ s.buffer.free)
    (hdata : s.buffer.data ++ (bytes ++ more) = frames.flatten) :
    ∃ rest, (s.receive h.session bytes).Waiting ∧
      (s.receive h.session bytes).buffer.data ++ more = rest.flatten ∧
      P (s.receive h.session bytes).state rest (s.receive h.session bytes).sent := by
  rw [← List.append_assoc] at hdata
  obtain ⟨unread, rest, hverdict, hwait, hpending, hafter⟩ :=
    h.scan_of_frames hs.capacity hkeeps hframes hP hdata
  have hread := receive_of_scan h hs.ready hfit rfl
  rw [hverdict] at hread
  obtain ⟨hready, hstate, hsent, hnominal, hunread, hroom⟩ := hread
  refine ⟨rest, ⟨hready, hroom, ?_, ?_⟩, ?_, ?_⟩
  · rw [ReceiveBuffer.capacity, hnominal]
    exact hs.capacity
  · rw [hunread]
    exact hwait
  · rw [hunread]
    exact hpending
  · rw [hstate, hsent]
    exact hafter

end Session

end SessionEngine
