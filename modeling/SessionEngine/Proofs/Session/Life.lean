import Mathlib.Logic.Relation
import SessionEngine.Proofs.Session.Hooks

/-!
# The life of a session

    new -> connecting -> connected -> disconnected

Whatever happens to a session comes down to six moves, each of which goes on
in this order and calls at most one hook (`Move`). `moves_step` says so of each
event, once for all; that phases never go back, and which hooks are called in
which order (`Life`), is then read off the moves.

When a session is disconnected no move is left, and nothing at all changes any
more (`run_of_disconnected`).
-/

namespace SessionEngine

/-- The place of a phase in the life of a session. -/
def Phase.rank : Phase → Nat
  | new => 0
  | connecting => 1
  | connected => 2
  | disconnected => 3

namespace Session

variable {σ : Type}

/-! ## What can happen -/

inductive Event where
  | connect
  /-- A connection is handed over that a listener has accepted. -/
  | accept (admitted : Bool)
  | opened (admitted : Bool)
  | openFailed (failure : ConnectFailure)
  /-- A read brings these bytes. -/
  | receive (bytes : Bytes)
  /-- The other side has closed the connection, or it broke. -/
  | endOfStream
  | disconnect
  | send (frames : List Bytes)

/-- Takes over a connection that is there already, which works once. -/
def accept (h : SessionHandler σ) (admitted : Bool) (s : Session σ) : Session σ :=
  if s.connect.1 then s.connect.2.opened h admitted else s

def step (h : SessionHandler σ) (s : Session σ) : Event → Session σ
  | .connect => s.connect.2
  | .accept admitted => s.accept h admitted
  | .opened admitted => s.opened h admitted
  | .openFailed failure => s.openFailed h failure
  | .receive bytes => s.receive h bytes
  | .endOfStream => s.endOfStream h
  | .disconnect => s.disconnect h
  | .send frames => s.send frames

def run (h : SessionHandler σ) (s : Session σ) (events : List Event) : Session σ :=
  events.foldl (step h) s

theorem run_cons (h : SessionHandler σ) (s : Session σ) (event : Event) (events : List Event) :
    s.run h (event :: events) = (s.step h event).run h events := rfl

/-- Whether an event asks for a connection, and gets one. -/
def Event.connects (s : Session σ) : Event → Bool
  | .connect | .accept _ => s.connect.1
  | .opened _ | .openFailed _ | .receive _ | .endOfStream | .disconnect | .send _ => false

/-- How many attempts to connect take effect. -/
def attempts (h : SessionHandler σ) (s : Session σ) : List Event → Nat
  | [] => 0
  | event :: events => (event.connects s).toNat + attempts h (s.step h event) events

/-! ## Moves -/

/-- Where a session stands, and the hooks that were called. -/
def stand (s : Session σ) : Phase × List Hook := (s.phase, s.hooks)

inductive Move : Phase × List Hook → Phase × List Hook → Prop where
  | attempt (hooks : List Hook) : Move (.new, hooks) (.connecting, hooks)
  | refuse (hooks : List Hook) : Move (.connecting, hooks) (.disconnected, hooks)
  | fail (failure : ConnectFailure) (hooks : List Hook) :
      Move (.connecting, hooks) (.disconnected, hooks ++ [.connectFailed failure])
  | opened (hooks : List Hook) : Move (.connecting, hooks) (.connected, hooks ++ [.connected])
  | read (hooks : List Hook) : Move (.connected, hooks) (.connected, hooks ++ [.received])
  | close (hooks : List Hook) : Move (.connected, hooks) (.disconnected, hooks ++ [.disconnected])

abbrev Moves : Phase × List Hook → Phase × List Hook → Prop := Relation.ReflTransGen Move

theorem stand_eq {s : Session σ} {phase : Phase} (hs : s.phase = phase) :
    s.stand = (phase, s.hooks) := by
  rw [stand, hs]

section Moving

variable (h : SessionHandler σ) (s : Session σ)

theorem stand_send (frames : List Bytes) : (s.send frames).stand = s.stand := by
  rw [send]
  split <;> rfl

theorem moves_disconnect : Moves s.stand (s.disconnect h).stand := by
  rw [disconnect]
  split
  next hconnected =>
      rw [stand_eq (isConnected_eq_true_iff.mp hconnected)]
      exact .single (.close s.hooks)
  next => exact .refl

theorem moves_perform (actions : List Action) : Moves s.stand (s.perform h actions).stand := by
  have hsent := stand_send s (Action.frames actions)
  rw [perform]
  split
  · rw [← hsent]
    exact moves_disconnect h _
  · exact (congrArg (Moves s.stand) hsent).mpr .refl

theorem moves_settle : Moves s.stand (s.settle h).stand := by
  rw [settle]
  split
  · exact moves_disconnect h s
  · exact .refl

theorem moves_connect : Moves s.stand s.connect.2.stand := by
  rw [connect]
  split
  next hnew =>
      rw [stand_eq hnew]
      exact .single (.attempt s.hooks)
  next => exact .refl

/-- A session that is admitted is connected, and then does what it is asked for. -/
theorem exists_connected_of_opened (hs : s.phase = .connecting) :
    ∃ s' : Session σ, s'.phase = .connected ∧ Moves s.stand s'.stand ∧
      Moves s'.stand (s.opened h true).stand := by
  refine ⟨{ s with phase := .connected, state := (h.connected s.state).1 }.note .connected, rfl,
    ?_, ?_⟩
  · rw [stand_eq hs]
    exact .single (.opened s.hooks)
  · rw [opened, if_pos hs, if_pos rfl]
    exact (moves_perform h _ (h.connected s.state).2).trans (moves_settle h _)

theorem moves_opened (admitted : Bool) : Moves s.stand (s.opened h admitted).stand := by
  by_cases hconnecting : s.phase = .connecting
  · cases admitted with
    | true =>
        obtain ⟨s', -, hopened, hmoves⟩ := exists_connected_of_opened h s hconnecting
        exact hopened.trans hmoves
    | false =>
        rw [opened, if_pos hconnecting, stand_eq hconnecting]
        exact .single (.refuse s.hooks)
  · rw [opened, if_neg hconnecting]

theorem moves_openFailed (failure : ConnectFailure) :
    Moves s.stand (s.openFailed h failure).stand := by
  rw [openFailed]
  split
  next hconnecting =>
      rw [stand_eq hconnecting]
      exact .single (.fail failure s.hooks)
  next => exact .refl

theorem moves_accept (admitted : Bool) : Moves s.stand (s.accept h admitted).stand := by
  rw [accept]
  split
  · exact (moves_connect s).trans (moves_opened h _ admitted)
  · exact .refl

variable {s}

theorem moves_deliver (hs : s.phase = .connected) : Moves s.stand (s.deliver h).stand := by
  rw [deliver]
  generalize h.received s.buffer.data s.state = reaction
  obtain ⟨state, actions, consumed⟩ := reaction
  have hnoted : ({ s with state }.note .received).stand = (.connected, s.hooks ++ [.received]) := by
    rw [stand, ← hs]
    rfl
  have hshown : Moves s.stand ({ s with state }.note .received).stand := by
    rw [stand_eq hs, hnoted]
    exact .single (.read s.hooks)
  have hperformed := hshown.trans (moves_perform h _ actions)
  dsimp only
  generalize ({ s with state }.note .received).perform h actions = performed at hperformed ⊢
  split
  · split
    next buffer _ =>
        exact hperformed.trans (moves_settle h { performed with buffer := buffer.compact })
    next => exact hperformed.trans (moves_disconnect h performed)
  · exact hperformed.trans (moves_disconnect h performed)

theorem moves_receive (bytes : Bytes) : Moves s.stand (s.receive h bytes).stand := by
  rw [receive]
  split
  next hconnected =>
      split
      next buffer _ =>
          exact moves_deliver h (s := { s with buffer }) (isConnected_eq_true_iff.mp hconnected)
      next => exact moves_disconnect h s
  next => exact .refl

theorem moves_step (event : Event) : Moves s.stand (s.step h event).stand := by
  cases event with
  | connect => exact moves_connect s
  | accept admitted => exact moves_accept h s admitted
  | opened admitted => exact moves_opened h s admitted
  | openFailed failure => exact moves_openFailed h s failure
  | receive bytes => exact moves_receive h bytes
  | endOfStream => exact moves_disconnect h s
  | disconnect => exact moves_disconnect h s
  | send frames => exact (congrArg (Moves s.stand) (stand_send s frames)).mpr .refl

theorem moves_run (events : List Event) : Moves s.stand (s.run h events).stand := by
  induction events generalizing s with
  | nil => exact .refl
  | cons event events ih => exact (moves_step h event).trans ih

end Moving

/-! ## What the moves come to -/

/-- The hooks of a session in a phase. -/
inductive Life : Phase → List Hook → Prop where
  | new : Life .new []
  | connecting : Life .connecting []
  /-- There was no room for the session. -/
  | refused : Life .disconnected []
  | failed (failure : ConnectFailure) : Life .disconnected [.connectFailed failure]
  | connected (reads : Nat) : Life .connected (.connected :: List.replicate reads .received)
  | disconnected (reads : Nat) :
      Life .disconnected (.connected :: List.replicate reads .received ++ [.disconnected])

theorem Life.move {stand stand' : Phase × List Hook} (h : Life stand.1 stand.2)
    (hmove : Move stand stand') : Life stand'.1 stand'.2 := by
  cases hmove with
  | attempt hooks =>
      cases h
      exact .connecting
  | refuse hooks =>
      cases h
      exact .refused
  | fail failure hooks =>
      cases h
      exact .failed failure
  | opened hooks =>
      cases h
      exact .connected 0
  | read hooks =>
      cases h with
      | connected reads =>
          have hmore := Life.connected (reads + 1)
          rw [List.replicate_succ'] at hmore
          exact hmore
  | close hooks =>
      cases h with
      | connected reads => exact .disconnected reads

theorem Life.moves {stand stand' : Phase × List Hook} (h : Life stand.1 stand.2)
    (hmoves : Moves stand stand') : Life stand'.1 stand'.2 := by
  induction hmoves with
  | refl => exact h
  | tail _ hmove ih => exact ih.move hmove

theorem Life.eq_nil {hooks : List Hook} (h : Life .connecting hooks) : hooks = [] := by
  cases h
  rfl

/-- The last hook was called if and only if a session is disconnected that had
been connected. -/
theorem Life.disconnected_mem_iff {phase : Phase} {hooks : List Hook} (h : Life phase hooks) :
    Hook.disconnected ∈ hooks ↔ phase = .disconnected ∧ Hook.connected ∈ hooks := by
  cases h with
  | new | connecting | refused => simp
  | failed failure => simp
  | connected reads => simp [List.mem_replicate]
  | disconnected reads => simp

theorem Move.rank_le {stand stand' : Phase × List Hook} (h : Move stand stand') :
    stand.1.rank ≤ stand'.1.rank := by
  cases h with
  | attempt | refuse | fail | opened | close => exact Nat.le_of_ble_eq_true rfl
  | read => exact Nat.le_refl _

theorem rank_le_of_moves {stand stand' : Phase × List Hook} (h : Moves stand stand') :
    stand.1.rank ≤ stand'.1.rank := by
  induction h with
  | refl => exact Nat.le_refl _
  | tail _ hmove ih => exact Nat.le_trans ih hmove.rank_le

/-! ## The first attempt and the end -/

section Ends

variable {h : SessionHandler σ} {s : Session σ}

theorem phase_disconnect_ne : (s.disconnect h).phase ≠ .connected := by
  rw [disconnect]
  split
  · exact Phase.noConfusion
  next hclosed => exact fun hs => hclosed (isConnected_eq_true_iff.mpr hs)

theorem connect_of_not_new (hs : s.phase ≠ .new) : s.connect = (false, s) := if_neg hs

theorem opened_of_not_connecting (hs : s.phase ≠ .connecting) (admitted : Bool) :
    s.opened h admitted = s := if_neg hs

theorem openFailed_of_not_connecting (hs : s.phase ≠ .connecting) (failure : ConnectFailure) :
    s.openFailed h failure = s := if_neg hs

theorem accept_of_not_new (hs : s.phase ≠ .new) (admitted : Bool) : s.accept h admitted = s := by
  rw [accept, connect_of_not_new hs]
  rfl

/-- Only an attempt to connect does anything to a new session. -/
theorem step_of_new (hs : s.phase = .new) {event : Event} (hconnects : event.connects s = false) :
    s.step h event = s := by
  have hconnecting : s.phase ≠ .connecting := by simp [hs]
  have hconnected : s.phase ≠ .connected := by simp [hs]
  cases event with
  | connect | accept =>
      rw [Event.connects, connect, if_pos hs] at hconnects
      cases hconnects
  | opened admitted => exact opened_of_not_connecting hconnecting admitted
  | openFailed failure => exact openFailed_of_not_connecting hconnecting failure
  | receive bytes => exact receive_of_not_connected hconnected bytes
  | endOfStream | disconnect => exact disconnect_of_not_connected hconnected
  | send frames => exact send_of_not_connected hconnected frames

/-- Nothing happens to a session that is disconnected. -/
theorem step_of_disconnected (hs : s.phase = .disconnected) (event : Event) :
    s.step h event = s := by
  have hnew : s.phase ≠ .new := by simp [hs]
  have hconnecting : s.phase ≠ .connecting := by simp [hs]
  have hconnected : s.phase ≠ .connected := by simp [hs]
  cases event with
  | connect => exact congrArg Prod.snd (connect_of_not_new hnew)
  | accept admitted => exact accept_of_not_new hnew admitted
  | opened admitted => exact opened_of_not_connecting hconnecting admitted
  | openFailed failure => exact openFailed_of_not_connecting hconnecting failure
  | receive bytes => exact receive_of_not_connected hconnected bytes
  | endOfStream | disconnect => exact disconnect_of_not_connected hconnected
  | send frames => exact send_of_not_connected hconnected frames

theorem run_of_disconnected (hs : s.phase = .disconnected) (events : List Event) :
    s.run h events = s := by
  induction events with
  | nil => rfl
  | cons event events ih => rw [run_cons, step_of_disconnected hs, ih]

/-- What is asked for after the connection is closed is not done. -/
theorem perform_disconnect (before after : List Action) :
    s.perform h (before ++ .disconnect :: after) = s.perform h (before ++ [.disconnect]) := by
  have hframes : Action.frames (before ++ .disconnect :: after) =
      Action.frames (before ++ [.disconnect]) := by
    induction before with
    | nil => rfl
    | cons action before ih =>
        cases action with
        | send frame => exact congrArg (frame :: ·) ih
        | disconnect => rfl
  have hcloses (rest : List Action) :
      Action.closes (before ++ .disconnect :: rest) = true :=
    List.contains_iff_mem.mpr (List.mem_append_right _ List.mem_cons_self)
  rw [perform, perform, hframes, if_pos (hcloses after), if_pos (hcloses [])]

/-- A hook that is called then can ask for nothing. -/
theorem perform_of_disconnected (hs : s.phase = .disconnected) (actions : List Action) :
    s.perform h actions = s := by
  have hconnected : s.phase ≠ .connected := by simp [hs]
  rw [perform, send_of_not_connected hconnected]
  split
  · exact disconnect_of_not_connected hconnected
  · rfl

theorem not_new_of_moves {s' : Session σ} (hs : s.phase ≠ .new)
    (hmoves : Moves s.stand s'.stand) : s'.phase ≠ .new := by
  have hrank : s.phase.rank ≤ s'.phase.rank := rank_le_of_moves hmoves
  intro hs'
  rw [hs'] at hrank
  cases hphase : s.phase with
  | new => exact hs hphase
  | connecting | connected | disconnected =>
      rw [hphase] at hrank
      exact absurd hrank (Nat.not_le.mpr (Nat.succ_pos _))

theorem disconnected_of_moves {s' : Session σ} (hs : s.phase = .connected)
    (hmoves : Moves s.stand s'.stand) (hs' : s'.phase ≠ .connected) :
    s'.phase = .disconnected := by
  have hrank : s.phase.rank ≤ s'.phase.rank := rank_le_of_moves hmoves
  rw [hs] at hrank
  cases hphase : s'.phase with
  | disconnected => rfl
  | connected => exact absurd hphase hs'
  | new | connecting =>
      rw [hphase] at hrank
      exact absurd hrank (Nat.not_le.mpr (by decide))

/-- After an attempt to connect a session is new no more. -/
theorem step_of_connects {event : Event} (hconnects : event.connects s = true) :
    s.phase = .new ∧ (s.step h event).phase ≠ .new := by
  have hnew : s.connect.1 = true → s.phase = .new := by
    rw [connect]
    split
    next hs => exact fun _ => hs
    next => exact Bool.noConfusion
  have hconnecting (hs : s.phase = .new) : s.connect.2.phase ≠ .new := by
    rw [connect, if_pos hs]
    exact Phase.noConfusion
  cases event with
  | connect => exact ⟨hnew hconnects, hconnecting (hnew hconnects)⟩
  | accept admitted =>
      refine ⟨hnew hconnects, not_new_of_moves (hconnecting (hnew hconnects)) ?_⟩
      have haccepted : s.step h (.accept admitted) = s.connect.2.opened h admitted :=
        if_pos hconnects
      rw [haccepted]
      exact moves_opened h s.connect.2 admitted
  | opened | openFailed | receive | endOfStream | disconnect | send => cases hconnects

theorem attempts_of_not_new (hs : s.phase ≠ .new) (events : List Event) :
    s.attempts h events = 0 := by
  induction events generalizing s with
  | nil => rfl
  | cons event events ih =>
      have hnone : event.connects s = false :=
        Bool.not_eq_true _ ▸ fun hconnects => hs (step_of_connects (h := h) hconnects).1
      rw [attempts, hnone, ih (not_new_of_moves hs (moves_step h event))]
      rfl

/-- An attempt has taken effect if and only if the session is new no more. -/
theorem attempts_of_new (hs : s.phase = .new) (events : List Event) :
    s.attempts h events = if (s.run h events).phase = .new then 0 else 1 := by
  induction events with
  | nil => exact (if_pos hs).symm
  | cons event events ih =>
      cases hconnects : event.connects s with
      | false => rw [attempts, hconnects, run_cons, step_of_new hs hconnects, ih,
          Bool.toNat_false, Nat.zero_add]
      | true =>
          have hstep : (s.step h event).phase ≠ .new := (step_of_connects hconnects).2
          rw [attempts, hconnects, attempts_of_not_new hstep, run_cons,
            if_neg (not_new_of_moves hstep (moves_run h events))]
          rfl

end Ends

end Session

end SessionEngine
