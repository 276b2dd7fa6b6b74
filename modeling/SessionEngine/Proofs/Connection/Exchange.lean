import SessionEngine.Connection
import SessionEngine.Proofs.Session.Frames

/-!
# Connections as exchanges of frames

Between two sides that read frames, all that counts is the state of each, the
frames under way in each direction and the frames that each has sent
(`Exchange`). An invariant of exchanges that showing a single frame keeps
(`KeptByFar`) is one of connections (`Carries`), however the bytes are cut and
whichever direction goes first. It is enough to look at one direction, since
the other is the same with the sides exchanged (`mirror`).

An invariant also says how many more frames there will be at most. Together
with the bytes under way that is a budget that every delivery uses up
(`Carries.deliver`), so deliveries come to an end.
-/

namespace SessionEngine

/-- What two sides and the frames between them come to. -/
structure Exchange (σ τ : Type) where
  near : σ
  far : τ
  toFar : List Bytes
  toNear : List Bytes
  nearSent : List Bytes
  farSent : List Bytes

namespace Exchange

variable {σ τ : Type}

def swap (x : Exchange σ τ) : Exchange τ σ :=
  ⟨x.far, x.near, x.toNear, x.toFar, x.farSent, x.nearSent⟩

/-- The far side has sent frames. -/
def answer (x : Exchange σ τ) (far : τ) (frames : List Bytes) : Exchange σ τ :=
  { x with far, toNear := x.toNear ++ frames, farSent := x.farSent ++ frames }

/-- The far side does something that keeps the connection open and sends at
most as many frames as there may be, of which at least `k` are used up. -/
def AnswersWith (I : Nat → Exchange σ τ → Prop) (k left : Nat) (x : Exchange σ τ) (far : τ)
    (actions : List Action) : Prop :=
  Action.closes actions = false ∧ Frame.AreFrames (Action.frames actions) ∧
    ∃ left', left' + k ≤ left ∧ left' + (Action.frames actions).length ≤ left ∧
      I left' (x.answer far (Action.frames actions))

theorem answersWith_of_send {I : Nat → Exchange σ τ → Prop} {k left left' : Nat}
    {x : Exchange σ τ} {far : τ} {frames : List Bytes} (hframes : Frame.AreFrames frames)
    (hI : I left' (x.answer far frames)) (hk : left' + k ≤ left)
    (hlength : left' + frames.length ≤ left) :
    AnswersWith I k left x far (frames.map .send) := by
  refine ⟨Action.closes_map_send frames, ?_, left', hk, ?_, ?_⟩
  · rw [Action.frames_map_send]
    exact hframes
  · rw [Action.frames_map_send]
    exact hlength
  · rw [Action.frames_map_send]
    exact hI

/-- Showing the first frame under way to the far side keeps the invariant. -/
def KeptByFar (h : PacketHandler τ) (I : Nat → Exchange σ τ → Prop) : Prop :=
  ∀ left x frame frames, I left x → x.toFar = frame :: frames →
    AnswersWith I 0 left { x with toFar := frames } (h.packet frame x.far).1
      (h.packet frame x.far).2

/-- The far side was shown all frames but the rest of those under way, and has
sent some since. -/
def Since (I : Nat → Exchange σ τ → Prop) (left : Nat) (x : Exchange σ τ) (far : τ)
    (rest sent : List Bytes) : Prop :=
  Frame.AreFrames rest ∧ ∃ new left', Frame.AreFrames new ∧ sent = x.farSent ++ new ∧
    left' + new.length ≤ left ∧ I left' ⟨x.near, far, rest, x.toNear ++ new, x.nearSent, sent⟩

theorem since_self {I : Nat → Exchange σ τ → Prop} {left : Nat} {x : Exchange σ τ}
    (hI : I left x) (hframes : Frame.AreFrames x.toFar) :
    Since I left x x.far x.toFar x.farSent := by
  refine ⟨hframes, [], left, Frame.areFrames_nil, (List.append_nil _).symm, Nat.le_refl _, ?_⟩
  rw [List.append_nil]
  exact hI

theorem KeptByFar.keeps {h : PacketHandler τ} {I : Nat → Exchange σ τ → Prop}
    (hI : KeptByFar h I) (left : Nat) (x : Exchange σ τ) : h.Keeps (Since I left x) := by
  rintro far frame frames sent ⟨hareFrames, new, left', hnew, rfl, hleft, hsince⟩
  obtain ⟨hopen, hframes, left₂, -, hleft₂, hnext⟩ := hI _ _ _ _ hsince rfl
  dsimp only at hopen hframes hleft₂
  refine ⟨hopen, fun other hmem => hareFrames other (List.mem_cons_of_mem _ hmem),
    new ++ Action.frames (h.packet frame far).2, left₂, hnew.append hframes, ?_, ?_, ?_⟩
  · rw [List.append_assoc]
  · rw [List.length_append]
    omega
  · rw [← List.append_assoc]
    exact hnext

/-- The invariant as the other side sees it. -/
def mirror (I : Nat → Exchange σ τ → Prop) (left : Nat) (x : Exchange τ σ) : Prop :=
  I left x.swap

end Exchange

namespace Side

variable {σ τ : Type}

/-- A side that is connected and reads frames. -/
structure Reads (h : PacketHandler σ) (side : Side σ) : Prop where
  handler : side.handler = h.session
  waiting : side.session.Waiting

/-- The frames under way from one side to another. The unread bytes there
belong to them. -/
structure Heading (a : Side σ) (b : Side τ) (frames : List Bytes) : Prop where
  taken_le : b.taken ≤ a.output.length
  pending : b.session.buffer.data ++ a.output.drop b.taken = frames.flatten
  areFrames : Frame.AreFrames frames

variable {a : Side σ} {b : Side τ} {frames : List Bytes}

theorem Heading.eq_nil {h : PacketHandler τ} (hb : b.Reads h) (hheading : a.Heading b frames)
    (hquiet : a.output.drop b.taken = []) : frames = [] := by
  refine hheading.areFrames.eq_nil ?_
  rw [← hheading.pending, hquiet, List.append_nil]
  exact hb.waiting.front

/-- Frames that are sent are under way behind the others. -/
theorem Heading.append {a' : Side σ} {new : List Bytes} (hheading : a.Heading b frames)
    (hsent : a'.session.sent = a.session.sent ++ new) (hnew : Frame.AreFrames new) :
    a'.Heading b (frames ++ new) ∧
      (a'.output.drop b.taken).length = (a.output.drop b.taken).length + new.flatten.length := by
  have hle := hheading.taken_le
  have houtput : a'.output = a.output ++ new.flatten := by
    rw [output, hsent, List.flatten_append, output]
  have hdrop : a'.output.drop b.taken = a.output.drop b.taken ++ new.flatten := by
    rw [houtput, List.drop_append_of_le_length hle]
  refine ⟨⟨?_, ?_, hheading.areFrames.append hnew⟩, ?_⟩
  · rw [houtput, List.length_append]
    omega
  · rw [hdrop, ← List.append_assoc, hheading.pending, List.flatten_append]
  · rw [hdrop, List.length_append]

theorem act_of_not_closes {h : PacketHandler σ} {f : Bool → σ → σ × List Action}
    (ha : a.Reads h) (hopen : Action.closes (f true a.session.state).2 = false) :
    (a.act f).Reads h ∧ (a.act f).session.state = (f true a.session.state).1 ∧
      (a.act f).session.sent =
        a.session.sent ++ Action.frames (f true a.session.state).2 ∧
      (a.act f).session.buffer = a.session.buffer ∧ (a.act f).taken = a.taken := by
  have hphase := ha.waiting.ready.phase_eq
  have hconnected : a.session.isConnected = true := Session.isConnected_eq_true_iff.mpr hphase
  have hact : (a.act f).session =
      { a.session with
        state := (f true a.session.state).1
        sent := a.session.sent ++ Action.frames (f true a.session.state).2 } := by
    simp only [act, Session.act, hconnected]
    exact Session.perform_of_not_closes a.handler hphase hopen
  have hready := ha.waiting.ready
  refine ⟨⟨ha.handler, ?_⟩, ?_, ?_, ?_, rfl⟩
  · rw [hact]
    exact ⟨⟨hready.phase_eq, hready.wellFormed, hready.nominal_pos⟩, ha.waiting.room,
      ha.waiting.capacity, ha.waiting.front⟩
  · rw [hact]
  · rw [hact]
  · rw [hact]

end Side

namespace Connection

variable {σ τ : Type}

/-- A connection between two sides that read frames, with an invariant of what
they exchange and a bound on what is still to come. -/
def Carries (hn : PacketHandler σ) (hf : PacketHandler τ) (I : Nat → Exchange σ τ → Prop)
    (budget : Nat) (c : Connection σ τ) : Prop :=
  c.near.Reads hn ∧ c.far.Reads hf ∧ ∃ left toFar toNear,
    c.near.Heading c.far toFar ∧ c.far.Heading c.near toNear ∧
    I left ⟨c.near.session.state, c.far.session.state, toFar, toNear, c.near.session.sent,
      c.far.session.sent⟩ ∧
    (Frame.maxLength + 1) * left + c.underWay.length + c.swap.underWay.length ≤ budget

section Carries

variable {hn : PacketHandler σ} {hf : PacketHandler τ} {I : Nat → Exchange σ τ → Prop}
  {budget : Nat} {c c' : Connection σ τ}

theorem Carries.swap (h : Carries hn hf I budget c) :
    Carries hf hn (Exchange.mirror I) budget c.swap := by
  obtain ⟨hnear, hfar, left, toFar, toNear, htoFar, htoNear, hI, hbudget⟩ := h
  refine ⟨hfar, hnear, left, toNear, toFar, htoNear, htoFar, hI, ?_⟩
  rw [swap_swap]
  omega

/-- What is used up covers the frames that are sent. -/
theorem budget_le {left left' k length bytes : Nat} (hk : left' + k ≤ left)
    (hlength : left' + length ≤ left) (hbytes : bytes ≤ Frame.maxLength * length) :
    (Frame.maxLength + 1) * left' + bytes + k ≤ (Frame.maxLength + 1) * left := by
  rw [Nat.succ_mul, Nat.succ_mul]
  rcases Nat.le_total length k with hle | hle
  · have hmul := Nat.mul_le_mul_left Frame.maxLength hk
    have hmore := Nat.mul_le_mul_left Frame.maxLength hle
    rw [Nat.mul_add] at hmul
    omega
  · have hmul := Nat.mul_le_mul_left Frame.maxLength hlength
    rw [Nat.mul_add] at hmul
    omega

/-- The far side has sent frames, and got bytes if any: what the invariant
gives up pays for the frames. -/
theorem Carries.answer {far : Side τ} {left left' k n : Nat} {toFar toNear new : List Bytes}
    (hnear : c.near.Reads hn) (hfar : far.Reads hf) (htoFar : c.near.Heading far toFar)
    (htoNear : c.far.Heading c.near toNear) (hnew : Frame.AreFrames new)
    (hsent : far.session.sent = c.far.session.sent ++ new)
    (hI : I left' ⟨c.near.session.state, far.session.state, toFar, toNear ++ new,
      c.near.session.sent, far.session.sent⟩)
    (hk : left' + k ≤ left) (hlength : left' + new.length ≤ left)
    (hread : (c.near.output.drop far.taken).length + n ≤ c.underWay.length)
    (hbudget : (Frame.maxLength + 1) * left + c.underWay.length + c.swap.underWay.length ≤
      budget) :
    ∃ budget', budget' + k + n ≤ budget ∧ Carries hn hf I budget' ⟨c.near, far⟩ := by
  obtain ⟨hheading, hgrown⟩ := htoNear.append hsent hnew
  have hcost := budget_le hk hlength hnew.length_flatten_le
  have hback : c.swap.underWay = c.far.output.drop c.near.taken := rfl
  rw [hback] at hbudget
  refine ⟨(Frame.maxLength + 1) * left' + (c.near.output.drop far.taken).length +
    (far.output.drop c.near.taken).length, ?_, hnear, hfar, left', toFar, toNear ++ new, htoFar,
    hheading, hI, Nat.le_refl _⟩
  omega

/-- Each delivery to the far side uses up some of the budget. -/
theorem Carries.deliver (hI : Exchange.KeptByFar hf I) (h : Carries hn hf I budget c) {n : Nat}
    (hdeliver : c.deliver? n = some c') : ∃ budget' < budget, Carries hn hf I budget' c' := by
  obtain ⟨hnear, hfar, left, toFar, toNear, htoFar, htoNear, hinvariant, hbudget⟩ := h
  obtain ⟨hpos, hthere, hfree, htaken, rfl, hcount⟩ := deliver?_eq_some hdeliver
  obtain ⟨rest, hwaiting, hpending, hareFrames, new, left', hnew, hsent, hleft, hafter⟩ :=
    Session.receive_of_frames hf hfar.waiting (hI.keeps left _) htoFar.areFrames
      (Exchange.since_self hinvariant htoFar.areFrames)
      (by rw [htaken]; exact hfree)
      (by rw [List.take_append_drop]; exact htoFar.pending)
  dsimp only at hsent hafter
  have hsession : (c.far.receive (c.underWay.take n)).session =
      c.far.session.receive hf.session (c.underWay.take n) := by
    rw [Side.receive, hfar.handler]
  have hunderWay : c.underWay.length = c.near.output.length - c.far.taken := by
    rw [underWay, List.length_drop]
  have hdrop : c.near.output.drop (c.far.taken + n) = c.underWay.drop n := by
    rw [underWay, List.drop_drop]
  rw [← hsession] at hwaiting hpending hsent hafter
  have hheading : c.near.Heading (c.far.receive (c.underWay.take n)) rest := by
    refine ⟨?_, ?_, hareFrames⟩
    · rw [hcount]
      exact hthere
    · rw [hcount, hdrop]
      exact hpending
  have hread : (c.near.output.drop (c.far.receive (c.underWay.take n)).taken).length + n ≤
      c.underWay.length := by
    rw [hcount, List.length_drop, hunderWay]
    omega
  have hreads : (c.far.receive (c.underWay.take n)).Reads hf := ⟨hfar.handler, hwaiting⟩
  obtain ⟨budget', hbudget', hcarries⟩ := Carries.answer (k := 0) hnear hreads hheading htoNear
    hnew hsent hafter (Nat.le_trans (Nat.le_add_right _ _) hleft) hleft hread hbudget
  exact ⟨budget', by omega, hcarries⟩

/-- Using the far side from outside, which may be what another invariant
begins with. -/
theorem Carries.act_far {I' : Nat → Exchange σ τ → Prop} {f : Bool → τ → τ × List Action}
    {k : Nat}
    (hf' : ∀ left x, I left x → x.far = c.far.session.state →
      Exchange.AnswersWith I' k left x (f true x.far).1 (f true x.far).2)
    (h : Carries hn hf I budget c) :
    ∃ budget', budget' + k ≤ budget ∧ Carries hn hf I' budget' { c with far := c.far.act f } := by
  obtain ⟨hnear, hfar, left, toFar, toNear, htoFar, htoNear, hinvariant, hbudget⟩ := h
  obtain ⟨hopen, hnew, left', hk, hlength, hafter⟩ := hf' left _ hinvariant rfl
  dsimp only [Exchange.answer] at hopen hnew hlength hafter
  obtain ⟨hreads, hstate, hsent, hbuffer, htaken⟩ := Side.act_of_not_closes hfar hopen
  rw [← hstate, ← hsent] at hafter
  have hheading : c.near.Heading (c.far.act f) toFar := by
    refine ⟨?_, ?_, htoFar.areFrames⟩
    · rw [htaken]
      exact htoFar.taken_le
    · rw [htaken, hbuffer]
      exact htoFar.pending
  exact Carries.answer (n := 0) hnear hreads hheading htoNear hnew hsent hafter hk hlength
    (by rw [htaken]; exact Nat.le_refl _) hbudget

/-! ## The same with the sides exchanged -/

theorem Carries.deliver_back (hI : Exchange.KeptByFar hn (Exchange.mirror I))
    (h : Carries hn hf I budget c) {n : Nat} {back : Connection τ σ}
    (hdeliver : c.swap.deliver? n = some back) :
    ∃ budget' < budget, Carries hn hf I budget' back.swap := by
  obtain ⟨budget', hlt, hcarries⟩ := h.swap.deliver hI hdeliver
  exact ⟨budget', hlt, hcarries.swap⟩

theorem Carries.act_near {I' : Nat → Exchange σ τ → Prop} {f : Bool → σ → σ × List Action}
    {k : Nat}
    (hf' : ∀ left x, I left x → x.near = c.near.session.state →
      Exchange.AnswersWith (Exchange.mirror I') k left x.swap (f true x.near).1
        (f true x.near).2)
    (h : Carries hn hf I budget c) :
    ∃ budget', budget' + k ≤ budget ∧
      Carries hn hf I' budget' { c with near := c.near.act f } := by
  have hanswers : ∀ left x, Exchange.mirror I left x → x.far = c.swap.far.session.state →
      Exchange.AnswersWith (Exchange.mirror I') k left x (f true x.far).1 (f true x.far).2 :=
    fun left x hI hstate => hf' left x.swap hI hstate
  obtain ⟨budget', hle, hcarries⟩ := h.swap.act_far hanswers
  exact ⟨budget', hle, hcarries.swap⟩

end Carries

end Connection

end SessionEngine
