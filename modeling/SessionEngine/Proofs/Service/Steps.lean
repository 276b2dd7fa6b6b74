import SessionEngine.Proofs.Service.Changes

/-!
# Steps of a service

A service goes through any steps: sessions are created, dialled and accepted,
connections are there or fail at any later time, bytes arrive, sessions end in
all the ways they can, and the service is started, closed and started again.
Each step is made of changes of the service (`changes_step`).
-/

namespace SessionEngine

/-- What can happen to a session that is not being opened. -/
inductive Traffic (σ : Type) where
  /-- A read brings these bytes. -/
  | receive (bytes : Bytes)
  /-- All of these bytes arrive, in reads as long as there is room for. -/
  | feed (bytes : Bytes)
  /-- The other side has closed the connection, or it broke. -/
  | endOfStream
  | disconnect
  | send (frames : List Bytes)
  /-- Somebody uses the handler from outside of its hooks. -/
  | use (f : Bool → σ → σ × List Action × Unit)

namespace Traffic

variable {σ : Type}

def apply (h : SessionHandler σ) (s : Session σ) : Traffic σ → Session σ
  | receive bytes => s.receive h bytes
  | feed bytes => s.feed h bytes
  | endOfStream => s.endOfStream h
  | disconnect => s.disconnect h
  | send frames => s.send frames
  | use f => (s.act h f).1

theorem moves_feed (h : SessionHandler σ) (s : Session σ) (bytes : Bytes) :
    Session.Moves s.stand (s.feed h bytes).stand := by
  fun_induction Session.feed h bytes s with
  | case1 => exact .refl
  | case2 bytes s hmore ih => exact (Session.moves_receive h _).trans ih

theorem moves_apply (h : SessionHandler σ) (s : Session σ) (traffic : Traffic σ) :
    Session.Moves s.stand (traffic.apply h s).stand := by
  cases traffic with
  | receive bytes => exact Session.moves_receive h bytes
  | feed bytes => exact moves_feed h s bytes
  | endOfStream | disconnect => exact Session.moves_disconnect h s
  | send frames => exact Session.moves_step h (.send frames)
  | use f => exact Session.moves_perform h { s with state := (f s.isConnected s.state).1 } _

theorem phase_apply (h : SessionHandler σ) {s : Session σ} (hs : s.phase ≠ .connected)
    (traffic : Traffic σ) : (traffic.apply h s).phase = s.phase := by
  cases traffic with
  | receive bytes => exact congrArg Session.phase (Session.receive_of_not_connected hs bytes)
  | feed bytes =>
      have hopen : s.isConnected = false := by
        rw [← Bool.not_eq_true, Session.isConnected_eq_true_iff]
        exact hs
      have hnothing : s.feed h bytes = s := by
        rw [Session.feed, hopen, if_pos (.inr (.inr rfl))]
      exact congrArg Session.phase hnothing
  | endOfStream | disconnect =>
      exact congrArg Session.phase (Session.disconnect_of_not_connected hs)
  | send frames => exact congrArg Session.phase (Session.send_of_not_connected hs frames)
  | use f =>
      show (s.act h f).1.phase = s.phase
      rw [Session.act_of_not_connected hs]

end Traffic

namespace Service

variable {σ : Type}

inductive Step (σ : Type) where
  /-- The service is started, unless something is in the way. -/
  | start (obstacle : Option ListenFailure) (failure : Option ConnectFailure)
  | accept
  | create
  /-- A session opens a connection, and that is there or has failed at once. -/
  | dial (id : SessionId) (failure : Option ConnectFailure)
  | connect (id : SessionId)
  | opened (id : SessionId)
  | openFailed (id : SessionId) (failure : ConnectFailure)
  | happen (id : SessionId) (traffic : Traffic σ)
  | broadcast (frame : Bytes)
  | close

def Step.session? : Step σ → Option SessionId
  | dial id _ | connect id | opened id | openFailed id _ | happen id _ => some id
  | start _ _ | accept | create | broadcast _ | close => none

def step (s : Service σ) : Step σ → Service σ
  | .start obstacle failure =>
      match s.start obstacle failure with
      | .ok s => s
      | .error _ => s
  | .accept => s.accept.2
  | .create => s.createSession.2
  | .dial id failure => (s.dial id failure).2
  | .connect id => s.modify id fun m => { m with session := m.session.connect.2 }
  | .opened id =>
      if (s.session? id).map Session.phase = some .connecting then s.complete id else s
  | .openFailed id failure =>
      s.modify id fun m => { m with session := m.session.openFailed s.handler failure }
  | .happen id traffic => s.update id (traffic.apply s.handler)
  | .broadcast frame => s.broadcast frame
  | .close => s.close

def run (s : Service σ) (steps : List (Step σ)) : Service σ := steps.foldl step s

section Stepping

variable {s : Service σ} {id : SessionId} {m : Member σ}

theorem phase_connect (s : Session σ) : s.connect.2.phase = .connected ↔ s.phase = .connected := by
  rw [Session.connect]
  split
  next hs =>
      rw [hs]
      exact iff_of_false Phase.noConfusion Phase.noConfusion
  next => exact Iff.rfl

theorem phase_openFailed (h : SessionHandler σ) (s : Session σ) (failure : ConnectFailure) :
    (s.openFailed h failure).phase = .connected ↔ s.phase = .connected := by
  rw [Session.openFailed]
  split
  next hs =>
      rw [hs]
      exact iff_of_false Phase.noConfusion Phase.noConfusion
  next => exact Iff.rfl

theorem changes_connect (s : Service σ) (id : SessionId) : Changes s (s.step (.connect id)) :=
  changes_modify Session.moves_connect phase_connect id

theorem changes_openFailed (s : Service σ) (id : SessionId) (failure : ConnectFailure) :
    Changes s (s.step (.openFailed id failure)) :=
  changes_modify (fun session => Session.moves_openFailed s.handler session failure)
    (fun session => phase_openFailed s.handler session failure) id

theorem changes_opened (hs : s.Sound) (id : SessionId) : Changes s (s.step (.opened id)) := by
  rw [step]
  split
  next hphase =>
      obtain ⟨m, hm, hconnecting⟩ := exists_of_phase hphase
      exact changes_complete hs hm hconnecting
  next => exact .refl

/-- What becomes of an attempt to open a connection. -/
def outcome (id : SessionId) : Option ConnectFailure → Step σ
  | none => .opened id
  | some failure => .openFailed id failure

theorem dial_of_not_new (hnew : (s.session? id).map Session.phase ≠ some .new)
    (failure : Option ConnectFailure) : (s.dial id failure).2 = s := by
  cases hm : s.member? id with
  | none => rw [dial, hm]
  | some m =>
      have hphase : m.session.phase ≠ .new := by
        rw [phase_of_member? hm] at hnew
        exact fun hsame => hnew (congrArg some hsame)
      rw [dial, hm]
      dsimp only
      rw [Session.connect_of_not_new hphase]

/-- Dialling is to start to open a connection and to wait what becomes of it. -/
theorem dial_of_new (hnew : (s.session? id).map Session.phase = some .new)
    (failure : Option ConnectFailure) :
    (s.dial id failure).2 = (s.step (.connect id)).step (outcome id failure) := by
  obtain ⟨m, hm, hphase⟩ := exists_of_phase hnew
  have hconnect : m.session.connect = (true, { m.session with phase := .connecting }) :=
    if_pos hphase
  have hstep : s.step (.connect id) =
      s.modify id fun m' => { m' with session := { m.session with phase := .connecting } } := by
    rw [step, modify_eq_place hm, modify_eq_place hm, hconnect]
  rw [hstep, dial, hm]
  dsimp only
  rw [hconnect]
  cases failure with
  | none =>
      rw [outcome, step, if_pos]
      rw [modify_eq_place hm, session?, member?_place_self _ hm]
      rfl
  | some failure => rfl

theorem dial_eq (s : Service σ) (id : SessionId) (failure : Option ConnectFailure) :
    (s.dial id failure).2 = s ∨
      (s.dial id failure).2 = (s.step (.connect id)).step (outcome id failure) := by
  by_cases hnew : (s.session? id).map Session.phase = some .new
  · exact .inr (dial_of_new hnew failure)
  · exact .inl (dial_of_not_new hnew failure)

theorem changes_outcome (hs : s.Sound) (id : SessionId) (failure : Option ConnectFailure) :
    Changes s (s.step (outcome id failure)) := by
  cases failure with
  | none => exact changes_opened hs id
  | some failure => exact changes_openFailed s id failure

theorem changes_dial (hs : s.Sound) (id : SessionId) (failure : Option ConnectFailure) :
    Changes s (s.dial id failure).2 := by
  rcases dial_eq s id failure with heq | heq
  · rw [heq]
  · have hconnect := changes_connect s id
    rw [heq]
    exact hconnect.trans (changes_outcome (hs.changes hconnect) id failure)

/-- A session is created, and opens a connection. -/
theorem changes_createSession_dial (hs : s.Sound) (failure : Option ConnectFailure) :
    Changes s (s.createSession.2.dial s.createSession.1 failure).2 := by
  have hcreate : Changes s s.createSession.2 := .single (.create s)
  exact hcreate.trans (changes_dial (hs.changes hcreate) _ failure)

theorem changes_happen (hs : s.Sound) (id : SessionId) (traffic : Traffic σ) :
    Changes s (s.step (.happen id traffic)) :=
  changes_update hs (fun session => traffic.moves_apply s.handler session)
    (fun session hclosed => by rw [traffic.phase_apply s.handler hclosed]; exact hclosed) id

/-! ## Steps about no session in particular -/

/-- A property that is kept by all that a step about no session in particular
is made of. -/
structure Keeping (P : Service σ → Prop) : Prop where
  listen : ∀ {s : Service σ} (listening : Bool), P s → P { s with listening }
  create : ∀ {s : Service σ}, P s → P s.createSession.2
  dial : ∀ {s : Service σ} (failure : Option ConnectFailure), P s →
    P (s.createSession.2.dial s.createSession.1 failure).2
  happen : ∀ {s : Service σ} (id : SessionId) (traffic : Traffic σ), P s →
    P (s.step (.happen id traffic))

section Keeping

variable {P : Service σ → Prop} (h : Keeping P)

include h

theorem Keeping.start (hs : P s) (obstacle : Option ListenFailure)
    (failure : Option ConnectFailure) : P (s.step (.start obstacle failure)) := by
  have hdials (n : Nat) : P (n.fold
      (fun _ _ (s : Service σ) => (s.createSession.2.dial s.createSession.1 failure).2) s) := by
    induction n with
    | zero => exact hs
    | succ n ih =>
        rw [Nat.fold_succ]
        exact h.dial failure ih
  rw [Service.step, Service.start]
  cases s.kind with
  | server =>
      dsimp only
      unfold Service.listen
      by_cases hlistening : s.listening = true
      · rw [if_pos hlistening]
        exact hs
      · rw [if_neg hlistening]
        cases obstacle with
        | none => exact h.listen true hs
        | some cause => exact hs
  | client =>
      dsimp only
      rw [dialAll]
      by_cases hfull : s.registry.limit - s.count = 0
      · rw [if_pos hfull]
        exact hs
      · rw [if_neg hfull]
        exact hdials _

theorem Keeping.foldl (hs : P s) (traffic : Traffic σ) (ids : List SessionId) :
    P (ids.foldl (fun s id => s.step (.happen id traffic)) s) :=
  List.foldlRecOn ids _ hs fun _ hs id _ => h.happen id traffic hs

theorem Keeping.step (hs : P s) {step : Step σ} (hstep : step.session? = none) :
    P (s.step step) := by
  cases step with
  | start obstacle failure => exact h.start hs obstacle failure
  | accept =>
      rw [Service.step, accept]
      split
      · exact h.dial none hs
      · exact hs
  | create => exact h.create hs
  | broadcast frame => exact h.foldl hs (.send [frame]) s.live
  | close => exact h.foldl (h.listen false hs) .disconnect s.live
  | dial | connect | opened | openFailed | happen => cases hstep

end Keeping

theorem keeping_changes (hs : s.Sound) : Keeping (Changes s) where
  listen listening h := h.tail (.listen _ listening)
  create h := h.tail (.create _)
  dial failure h := h.trans (changes_createSession_dial (hs.changes h) failure)
  happen id traffic h := h.trans (changes_happen (hs.changes h) id traffic)

theorem changes_step (hs : s.Sound) (step : Step σ) : Changes s (s.step step) := by
  cases step with
  | start | accept | create | broadcast | close => exact (keeping_changes hs).step .refl rfl
  | dial id failure => exact changes_dial hs id failure
  | connect id => exact changes_connect s id
  | opened id => exact changes_opened hs id
  | openFailed id failure => exact changes_openFailed s id failure
  | happen id traffic => exact changes_happen hs id traffic

theorem changes_run (hs : s.Sound) (steps : List (Step σ)) : Changes s (s.run steps) := by
  induction steps generalizing s with
  | nil => exact .refl
  | cons step steps ih =>
      exact (changes_step hs step).trans (ih (hs.changes (changes_step hs step)))

end Stepping

end Service

end SessionEngine
