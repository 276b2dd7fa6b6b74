import SessionEngine.Connection
import SessionEngine.Proofs.Session.Frames

/-!
# Frames that are heard on a connection

What goes to one side of a connection is a list of frames, and wherever the
bytes are cut, the side has been shown some of them and not the rest
(`Side.Shown`). Its state and what it has sent are those of the handler that
was shown these frames one by one, so that an argument about a conversation
can leave the bytes alone.

Nothing is asked of the memory of the side but that it holds the longest of
the frames, and nothing of the handler but that it leaves the connection open
over them (`Shown.receive`). With both sides taken together (`Talks`), what is
said about a delivery to the far side holds of one to the near side as well
(`Talks.deliver`, `Talks.swap`). What a run of steps keeps, and that it comes
to an end, is a matter of its single steps (`keeps_run`, `exists_run`).
-/

namespace SessionEngine

namespace Side

variable {σ τ : Type}

/-- A side that was in state `s` and had sent `sent` when it began to read. It
was shown some frames, and of the rest it has the beginning unread while
`pending` is under way. -/
structure Shown (h : PacketHandler σ) (s : σ) (sent : List Bytes) (shown rest : List Bytes)
    (pending : Bytes) (side : Side σ) : Prop where
  handler_eq : side.handler = h.session
  ready : side.session.Ready
  room : 0 < side.session.buffer.free
  front : Frame.front side.session.buffer.data = .incomplete
  unread : side.session.buffer.data ++ pending = rest.flatten
  state_eq : side.session.state = Reaction.after h.packet shown s
  sent_eq : side.session.sent = sent ++ Action.frames (Reaction.actions h.packet shown s)

section Shown

variable {h : PacketHandler σ} {s : σ} {sent shown rest : List Bytes} {pending : Bytes}
  {side : Side σ}

/-- Frames that are sent later are under way behind the others. -/
theorem Shown.append (hs : side.Shown h s sent shown rest pending) (new : List Bytes) :
    side.Shown h s sent shown (rest ++ new) (pending ++ new.flatten) := by
  refine ⟨hs.handler_eq, hs.ready, hs.room, hs.front, ?_, hs.state_eq, hs.sent_eq⟩
  rw [← List.append_assoc, hs.unread, List.flatten_append]

theorem Shown.eq_nil (hs : side.Shown h s sent shown rest []) {limit : Nat}
    (hfit : Frame.FitIn limit rest) : rest = [] := by
  refine hfit.eq_nil ?_
  rw [← hs.unread, List.append_nil]
  exact hs.front

/-- A read shows some of the frames under way, whatever bytes it brings. -/
theorem Shown.receive {bytes more : Bytes} (hs : side.Shown h s sent shown rest (bytes ++ more))
    (hlength : bytes.length ≤ side.session.buffer.free)
    (hfit : Frame.FitIn side.session.buffer.capacity rest)
    (hopen : Reaction.closed h.packet (shown ++ rest) s = false) :
    ∃ now later, now ++ later = rest ∧
      (side.receive bytes).Shown h s sent (shown ++ now) later more ∧
      (side.receive bytes).session.buffer.capacity = side.session.buffer.capacity := by
  rw [Reaction.closed_append, Bool.or_eq_false_iff, ← hs.state_eq] at hopen
  have hunread : (side.session.buffer.data ++ bytes) ++ more = rest.flatten := by
    rw [List.append_assoc]
    exact hs.unread
  obtain ⟨now, later, unread, hsplit, -, hpending, hwait, hscan⟩ :=
    h.scan_of_open hs.ready.capacity_pos hfit hopen.2 hunread
  have hread := Session.receive_of_scan h hs.ready hlength hscan
  dsimp only at hread
  obtain ⟨hready, hstate, hsent, hnominal, hdata, hroom⟩ := hread
  have hsession : (side.receive bytes).session = side.session.receive h.session bytes := by
    rw [Side.receive, hs.handler_eq]
  refine ⟨now, later, hsplit, ⟨hs.handler_eq, ?_, ?_, ?_, ?_, ?_, ?_⟩, ?_⟩
  · rw [hsession]
    exact hready
  · rw [hsession]
    exact hroom
  · rw [hsession, hdata]
    exact hwait
  · rw [hsession, hdata]
    exact hpending
  · rw [hsession, hstate, hs.state_eq, Reaction.after_append hopen.1]
  · have hquiet : Action.closes (Reaction.actions h.packet shown s) = false := by
      rw [Reaction.closes_actions]
      exact hopen.1
    rw [hsession, hsent, hs.sent_eq, hs.state_eq, Reaction.actions_append hopen.1,
      Action.frames_append _ hquiet, List.append_assoc]
  · rw [hsession, ReceiveBuffer.capacity, hnominal, ReceiveBuffer.capacity]

end Shown

/-- A side whose handler greets, before it is known whether it can ever read anything. -/
theorem session_opened {h : PacketHandler σ} {s greeted : σ} {actions : List Action}
    (readLength : Nat) (hconnected : h.connected s = (greeted, actions))
    (hopen : Action.closes actions = false) :
    (opened h.session readLength s).session = Session.settle h.session
      ⟨.connected, .empty readLength, greeted, Action.frames actions, [.connected]⟩ := by
  have hhook : h.session.connected s = (greeted, actions) := hconnected
  simp only [opened, Session.create, Session.connect, Session.opened, Session.note, if_true, hhook]
  rw [Session.perform_of_not_closes _ rfl hopen]
  rfl

/-- A side whose handler greets and keeps the connection open. -/
theorem session_opened_of_open {h : PacketHandler σ} {s greeted : σ} {actions : List Action}
    {readLength : Nat} (hlength : 0 < readLength) (hconnected : h.connected s = (greeted, actions))
    (hopen : Action.closes actions = false) :
    (opened h.session readLength s).session =
      ⟨.connected, .empty readLength, greeted, Action.frames actions, [.connected]⟩ := by
  have hfree : ¬(ReceiveBuffer.empty readLength).free = 0 := by
    rw [ReceiveBuffer.free, ReceiveBuffer.capacity, ReceiveBuffer.readsHeld]
    show ¬10 * readLength - 0 = 0
    omega
  rw [session_opened readLength hconnected hopen]
  exact if_neg hfree

theorem shown_opened {h : PacketHandler σ} {s greeted : σ} {actions : List Action}
    {readLength : Nat} (hlength : 0 < readLength) (hconnected : h.connected s = (greeted, actions))
    (hopen : Action.closes actions = false) :
    (opened h.session readLength s).Shown h greeted (Action.frames actions) [] [] [] ∧
      (opened h.session readLength s).taken = 0 ∧
      (opened h.session readLength s).session.buffer.capacity =
        (ReceiveBuffer.empty readLength).capacity := by
  have hsession := session_opened_of_open hlength hconnected hopen
  refine ⟨⟨rfl, ?_, ?_, ?_, ?_, ?_, ?_⟩, rfl, ?_⟩
  · rw [hsession]
    exact Session.ready_of_empty rfl rfl hlength
  · rw [hsession, ReceiveBuffer.free, ReceiveBuffer.capacity, ReceiveBuffer.readsHeld]
    show 0 < 10 * readLength - 0
    omega
  · rw [hsession]
    rfl
  · rw [hsession]
    rfl
  · rw [hsession]
    rfl
  · rw [hsession, show Reaction.actions h.packet [] greeted = [] from rfl, Action.frames,
      List.append_nil]
  · rw [hsession]

end Side

namespace Connection

variable {σ τ : Type}

/-- What a delivery to the far side does. -/
theorem shown_deliver {h : PacketHandler τ} {s : τ} {sent shown rest : List Bytes} {n : Nat}
    {c c' : Connection σ τ} (hdeliver : c.deliver? n = some c')
    (hs : c.far.Shown h s sent shown rest c.underWay)
    (hfit : Frame.FitIn c.far.session.buffer.capacity rest)
    (hopen : Reaction.closed h.packet (shown ++ rest) s = false) :
    ∃ now later, now ++ later = rest ∧ c'.near = c.near ∧
      c'.far.Shown h s sent (shown ++ now) later c'.underWay ∧
      c'.far.session.buffer.capacity = c.far.session.buffer.capacity ∧
      c'.far.taken = c.far.taken + n ∧ 0 < n ∧ c.far.taken + n ≤ c.near.output.length := by
  obtain ⟨hpos, hthere, hfree, htaken, rfl, hcount⟩ := deliver?_eq_some hdeliver
  have hleft : c.near.output.drop (c.far.receive (c.underWay.take n)).taken =
      c.underWay.drop n := by
    rw [hcount, underWay, List.drop_drop]
  rw [← List.take_append_drop n c.underWay] at hs
  obtain ⟨now, later, hsplit, hafter, hcapacity⟩ :=
    hs.receive (by rw [htaken]; exact hfree) hfit hopen
  refine ⟨now, later, hsplit, rfl, ?_, hcapacity, hcount, hpos, hthere⟩
  rw [← hleft] at hafter
  exact hafter

/-- As long as bytes are under way to a side that has room, one can be delivered. -/
theorem exists_deliver {c : Connection σ τ} (hroom : 0 < c.far.session.buffer.free)
    (hbusy : c.underWay ≠ []) : ∃ c', c.deliver? 1 = some c' := by
  have hlength : 1 ≤ c.underWay.length := List.length_pos_iff.mpr hbusy
  exact ⟨_, by rw [deliver?, if_pos ⟨Nat.one_pos, hlength, hroom⟩]⟩

/-! ## Runs -/

section Runs

variable {allowed : Step σ τ → Prop} {c c' : Connection σ τ} {steps : List (Step σ τ)}

theorem run?_cons {step : Step σ τ} {c₁ : Connection σ τ} (hstep : c.step? step = some c₁)
    (steps : List (Step σ τ)) : c.run? (step :: steps) = c₁.run? steps := by
  rw [run?, List.foldlM_cons, hstep]
  rfl

theorem keeps_run {P : Connection σ τ → Prop}
    (hkeeps : ∀ {c c' : Connection σ τ} {step : Step σ τ},
      P c → allowed step → c.step? step = some c' → P c')
    (hc : P c) (hsteps : ∀ step ∈ steps, allowed step) (hrun : c.run? steps = some c') : P c' := by
  induction steps generalizing c with
  | nil =>
      obtain rfl := Option.some.inj hrun
      exact hc
  | cons step steps ih =>
      cases hstep : c.step? step with
      | none =>
          rw [run?, List.foldlM_cons, hstep] at hrun
          cases hrun
      | some c₁ =>
          rw [run?_cons hstep] at hrun
          exact ih (hkeeps hc (hsteps step List.mem_cons_self) hstep)
            (fun other hmem => hsteps other (List.mem_cons_of_mem _ hmem)) hrun

/-- The end can be reached if, as long as it is not, some step brings it
nearer. -/
theorem exists_run {P : Nat → Connection σ τ → Prop} {final : Connection σ τ → Prop}
    (hnearer : ∀ {budget : Nat} {c : Connection σ τ}, P budget c →
      final c ∨ ∃ step c', allowed step ∧ c.step? step = some c' ∧ ∃ budget' < budget, P budget' c')
    {budget : Nat} (hc : P budget c) :
    ∃ steps c', (∀ step ∈ steps, allowed step) ∧ c.run? steps = some c' ∧ final c' := by
  induction budget using Nat.strongRecOn generalizing c with
  | ind budget ih =>
      rcases hnearer hc with hfinal | ⟨step, c₁, hallowed, hstep, budget', hlt, hnext⟩
      · exact ⟨[], c, fun _ hmem => absurd hmem List.not_mem_nil, rfl, hfinal⟩
      · obtain ⟨steps, c₂, hsteps, hrun, hfinal⟩ := ih budget' hlt hnext
        refine ⟨step :: steps, c₂, ?_, (run?_cons hstep steps).trans hrun, hfinal⟩
        intro other hmem
        rcases List.mem_cons.mp hmem with rfl | hrest
        · exact hallowed
        · exact hsteps other hrest

end Runs

/-! ## Both directions -/

/-- Nobody does anything but read. -/
def Step.IsDelivery : Step σ τ → Prop
  | .toFar _ => True
  | .toNear _ => True
  | .near _ => False
  | .far _ => False

/-- Each side has heard a part of what the other has sent, and the rest is
ahead. -/
structure Talks (hn : PacketHandler σ) (hf : PacketHandler τ) (s : σ) (t : τ)
    (sent sent' heard ahead heard' ahead' : List Bytes) (c : Connection σ τ) : Prop where
  near_taken : c.near.taken ≤ c.far.output.length
  far_taken : c.far.taken ≤ c.near.output.length
  near_heard : heard ++ ahead = c.far.session.sent
  far_heard : heard' ++ ahead' = c.near.session.sent
  near_shown : c.near.Shown hn s sent heard ahead c.swap.underWay
  far_shown : c.far.Shown hf t sent' heard' ahead' c.underWay

section Talks

variable {hn : PacketHandler σ} {hf : PacketHandler τ} {s : σ} {t : τ}
  {sent sent' heard ahead heard' ahead' : List Bytes} {c c' : Connection σ τ} {n : Nat}

theorem Talks.swap (h : c.Talks hn hf s t sent sent' heard ahead heard' ahead') :
    c.swap.Talks hf hn t s sent' sent heard' ahead' heard ahead :=
  ⟨h.far_taken, h.near_taken, h.far_heard, h.near_heard, h.far_shown, h.near_shown⟩

/-- A delivery to the far side: it hears more, and what it answers is ahead of
the near side. -/
theorem Talks.deliver (h : c.Talks hn hf s t sent sent' heard ahead heard' ahead')
    (hdeliver : c.deliver? n = some c')
    (hfit : Frame.FitIn c.far.session.buffer.capacity ahead')
    (hopen : Reaction.closed hf.packet (heard' ++ ahead') t = false) :
    ∃ now later, now ++ later = ahead' ∧ c'.near = c.near ∧
      c'.Talks hn hf s t sent sent' heard
        (ahead ++ Action.frames (Reaction.actions hf.packet now
          (Reaction.after hf.packet heard' t))) (heard' ++ now) later ∧
      c'.far.session.buffer.capacity = c.far.session.buffer.capacity ∧
      c'.underWay.length < c.underWay.length ∧ c.far.taken < c'.far.taken := by
  obtain ⟨now, later, rfl, hnear, hshown, hcapacity, htaken, hpos, hbound⟩ :=
    shown_deliver hdeliver h.far_shown hfit hopen
  rw [Reaction.closed_append, Bool.or_eq_false_iff] at hopen
  have hquiet : Action.closes (Reaction.actions hf.packet heard' t) = false := by
    rw [Reaction.closes_actions]
    exact hopen.1
  have hsent : c'.far.session.sent = c.far.session.sent ++
      Action.frames (Reaction.actions hf.packet now (Reaction.after hf.packet heard' t)) := by
    rw [hshown.sent_eq, h.far_shown.sent_eq, Reaction.actions_append hopen.1,
      Action.frames_append _ hquiet, List.append_assoc]
  have houtput : c'.far.output = c.far.output ++ (Action.frames
      (Reaction.actions hf.packet now (Reaction.after hf.packet heard' t))).flatten := by
    rw [Side.output, hsent, List.flatten_append, Side.output]
  have hback : c'.swap.underWay = c.swap.underWay ++ (Action.frames
      (Reaction.actions hf.packet now (Reaction.after hf.packet heard' t))).flatten := by
    show c'.far.output.drop c'.near.taken = c.far.output.drop c.near.taken ++ _
    rw [hnear, houtput, List.drop_append_of_le_length h.near_taken]
  refine ⟨now, later, rfl, hnear, ⟨?_, ?_, ?_, ?_, ?_, hshown⟩, hcapacity, ?_, ?_⟩
  · rw [hnear, houtput, List.length_append]
    exact Nat.le_trans h.near_taken (Nat.le_add_right _ _)
  · rw [hnear, htaken]
    exact hbound
  · rw [hsent, ← h.near_heard, List.append_assoc]
  · rw [hnear, List.append_assoc]
    exact h.far_heard
  · rw [hnear, hback]
    exact h.near_shown.append _
  · rw [underWay, underWay, hnear, htaken, List.length_drop, List.length_drop]
    omega
  · rw [htaken]
    omega

/-- When nothing is under way, everything has been heard. -/
theorem Talks.eq_nil (h : c.Talks hn hf s t sent sent' heard ahead heard' ahead')
    (hquiet : c.underWay = []) {limit : Nat} (hfit : Frame.FitIn limit ahead') : ahead' = [] := by
  have hshown := h.far_shown
  rw [hquiet] at hshown
  exact hshown.eq_nil hfit

end Talks

end Connection

end SessionEngine
