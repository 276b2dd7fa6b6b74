import SessionEngine.Proofs.Transfer.Carrier
import SessionEngine.Proofs.Transfer.Reports

/-!
# Transfers at the end of a session

When a connection ends, its transfers that are not complete are failed and
reported, by the last hook. That hook is called by the end of a connection and
by nothing else, so it misses what is started while there is no connection: a
transfer that somebody starts after the end, or before a beginning that never
comes, because the connection could not be opened or there was no room for it
(`Stranded`). Nothing else is active when a session is disconnected, and all
that was ever started and is neither active nor cancelled has been reported
(`settled_run`).
-/

namespace SessionEngine

open Transfer

/-! ## What operations start -/

theorem Transfer.Fate.reported_pos {stage : Stage} {reports : Nat} {given aborted : Bool}
    (h : Fate stage reports given true false aborted) (hended : stage ≠ .active) : 0 < reports := by
  cases h with
  | active => exact absurd rfl hended
  | completed | ended => exact Nat.one_pos
  | reportedAgain => exact Nat.two_pos

namespace Transfer.Operation

/-- The transfers that a run of operations starts, in order. -/
def started (t : Transfers) : List Operation → List TransferId
  | [] => []
  | op :: ops => (op.started? t).toList ++ started (op.perform t) ops

theorem run_append (t : Transfers) (ops ops' : List Operation) :
    run t (ops ++ ops') = run (run t ops) ops' := List.foldl_append

theorem issued_append (t : Transfers) (ops ops' : List Operation) :
    issued t (ops ++ ops') = issued t ops + issued (run t ops) ops' := by
  induction ops generalizing t with
  | nil => exact (Nat.zero_add _).symm
  | cons op ops ih => rw [List.cons_append, issued, issued, ih, Nat.add_assoc, run_cons]

theorem started?_eq_none {op : Operation} (h : op.direction? = none) (t : Transfers) :
    op.started? t = none := by
  cases op with
  | send | receive => cases h
  | takeChunk | sendNext | cancel | abort | failActive | reportFailedSend => rfl

theorem started_eq_nil {ops : List Operation} (h : ∀ op ∈ ops, op.direction? = none)
    (t : Transfers) : started t ops = [] := by
  induction ops generalizing t with
  | nil => rfl
  | cons op ops ih =>
      rw [started, started?_eq_none (h op List.mem_cons_self),
        ih (fun other hother => h other (List.mem_cons_of_mem op hother))]
      rfl

/-- What is active was active before, or was just started. -/
theorem active_run {ops : List Operation} {n : Nat} {t : Transfers} (h : Numbered n t)
    (hn : n + issued t ops < UInt32.size) {id : TransferId}
    (hactive : (run t ops).stage id = .active) : t.stage id = .active ∨ id ∈ started t ops := by
  induction ops generalizing n t with
  | nil => exact Or.inl hactive
  | cons op ops ih =>
      rw [issued, ← Nat.add_assoc] at hn
      have hop : n + (op.issues t).toNat < UInt32.size :=
        Nat.lt_of_le_of_lt (Nat.le_add_right _ _) hn
      have ht : t.Sound := h.sound (Nat.lt_of_le_of_lt (Nat.le_add_right n _) hop)
      rw [started, List.mem_append, Option.mem_toList]
      rcases ih (h.perform op hop) hn hactive with hbefore | hlater
      · obtain ⟨_, -, hturn⟩ := turn_perform ht id op
        exact (hturn.active_or_started hbefore).imp_right fun hstarts =>
          Or.inl (of_decide_eq_true hstarts)
      · exact Or.inr (Or.inr hlater)

end Transfer.Operation

namespace Transfer.Transfers

theorem stage_failActive (id : TransferId) (t : Transfers) : t.failActive.2.stage id ≠ .active := by
  rw [stage, get?, book_failActive]
  split
  next => exact Stage.noConfusion
  next record hget =>
      have hcompleted := (List.mem_filter.mp (Table.mem_of_get? hget)).2
      rw [if_pos hcompleted]
      exact Stage.noConfusion

/-- None is counted if none is active. -/
theorem active_eq_zero {t : Transfers} (hd : t.book.Distinct)
    (h : ∀ id, t.stage id ≠ .active) : t.active = 0 := by
  rw [active, activeEntries, List.length_eq_zero_iff, List.filter_eq_nil_iff]
  rintro ⟨id, record⟩ hmem hopen
  refine h id ?_
  rw [stage_of_get? (Table.get?_of_mem hd hmem), if_neg]
  simpa using hopen

end Transfer.Transfers

namespace FileCarrier

variable {σ : Type}

/-! ## What a session leaves behind -/

/-- The transfers that an event starts without the session. -/
def Event.starts (connected : Bool) (e : Endpoint) : Event → List TransferId
  | .act a => Operation.started e.transfers (a.operations connected e)
  | _ => []

/-- The transfers that were started from outside, with the phases in which
that was. -/
def announced (c : FileCarrier σ) (s : Session σ) : List Event → List (TransferId × Phase)
  | [] => []
  | event :: events =>
      (event.starts s.isConnected (c.files s.state)).map (·, s.phase) ++
        c.announced (c.step s event) events

/-- A transfer was started when no connection was left that could end: after
the end, or before a beginning that did not come. -/
def Stranded (announced : List (TransferId × Phase)) (hooks : List Hook) (id : TransferId) : Prop :=
  ∃ phase, (id, phase) ∈ announced ∧ phase ≠ .connected ∧
    (phase ≠ .disconnected → Hook.connected ∉ hooks)

/-! ## What is written down -/

section Account

variable {c : FileCarrier σ} {P : σ → Prop} {s : Session σ}

/-- What the hooks and all that is done from outside keep, each event keeps. -/
theorem keeps_step (hkeeps : c.handler.session.Keeps P)
    (huse : ∀ act connected state, P state → P (c.use act connected state).1)
    (hoperate : ∀ op state, P state → P (c.operate op state)) (hs : P s.state) (event : Event) :
    P (c.step s event).state := by
  cases event with
  | connect =>
      rw [step, Session.connect]
      split <;> exact hs
  | opened admitted => exact Session.keeps_opened hkeeps hs admitted
  | openFailed failure => exact Session.keeps_openFailed hkeeps hs failure
  | receive bytes => exact Session.keeps_receive hkeeps hs bytes
  | disconnect => exact Session.keeps_disconnect hkeeps hs
  | send frames =>
      rw [step, Session.state_send]
      exact hs
  | act act => exact Session.keeps_act hkeeps (huse act _ _ hs)
  | manage op h => exact hoperate op _ hs

/-- What was written down accounts for the transfers. -/
def Account (c : FileCarrier σ) (state : σ × List Operation) : Prop :=
  (c.files state.1).transfers = Operation.run (Transfers.empty true) state.2

theorem Account.append {state : σ × List Operation} (h : c.Account state) {after : σ}
    {ops : List Operation}
    (hafter : (c.files after).transfers = Operation.run (c.files state.1).transfers ops) :
    c.Account (after, state.2 ++ ops) := by
  rw [Account, Operation.run_append, hafter, h]

theorem account_step {s : Session (σ × List Operation)} (h : c.Account s.state) (event : Event) :
    c.Account (c.recorded.step s event).state := by
  refine keeps_step (PacketHandler.keeps_session ?_ ?_ ?_ ?_) ?_ ?_ h event
  · exact fun state hstate => hstate.append (c.transfers_connected state.1)
  · exact fun failure state hstate => hstate.append (c.transfers_connectFailed failure state.1)
  · exact fun frame state hstate => hstate.append (c.transfers_packet frame state.1)
  · intro state hstate
    refine hstate.append ?_
    rw [c.files_disconnected]
    rfl
  · intro act connected state hstate
    refine hstate.append ?_
    rw [c.files_put]
    exact act.transfers_perform connected (c.files state.1)
  · intro op state hstate
    refine hstate.append ?_
    rw [c.files_put]
    rfl

/-- What was written down stays. -/
theorem prefix_step (c : FileCarrier σ) (s : Session (σ × List Operation)) (event : Event) :
    s.state.2 <+: (c.recorded.step s event).state.2 := by
  have happend : ∀ (state : σ × List Operation) (ops : List Operation),
      s.state.2 <+: state.2 → s.state.2 <+: state.2 ++ ops :=
    fun state ops hstate => hstate.trans (List.prefix_append _ _)
  refine keeps_step (P := fun state : σ × List Operation => s.state.2 <+: state.2)
    (PacketHandler.keeps_session ?_ ?_ ?_ ?_) ?_ ?_ (List.prefix_refl _) event
  · exact fun state => happend state _
  · exact fun failure state => happend state _
  · exact fun frame state => happend state _
  · exact fun state => happend state _
  · exact fun act connected state => happend state _
  · exact fun op state => happend state _

theorem prefix_run (c : FileCarrier σ) (s : Session (σ × List Operation)) (events : List Event) :
    s.state.2 <+: (c.recorded.run s events).state.2 := by
  induction events generalizing s with
  | nil => exact List.prefix_refl _
  | cons event events ih => exact (c.prefix_step s event).trans (ih (c.recorded.step s event))

theorem issued_le_of_prefix {ops ops' : List Operation} (h : ops <+: ops') (t : Transfers) :
    Operation.issued t ops ≤ Operation.issued t ops' := by
  obtain ⟨rest, rfl⟩ := h
  rw [Operation.issued_append]
  exact Nat.le_add_right _ _

end Account

/-! ## What is left over -/

/-- The account is right, and what is active while there is no connection is
stranded. -/
structure Kept (c : FileCarrier σ) (announced : List (TransferId × Phase))
    (s : Session (σ × List Operation)) : Prop where
  account : c.Account s.state
  before : s.phase ≠ .connected → s.phase ≠ .disconnected → Hook.connected ∉ s.hooks
  stranded : s.phase ≠ .connected → ∀ id, (c.files s.state.1).transfers.stage id = .active →
    Stranded announced s.hooks id

section Kept

variable {c : FileCarrier σ} {announced : List (TransferId × Phase)}
  {s s' : Session (σ × List Operation)}

theorem attended_step {s : Session σ} (hs : s.phase = .connected) (event : Event) :
    (c.step s event).Attended c.handler.session := by
  have hattended : s.Attended c.handler.session := Or.inl hs
  cases event with
  | connect =>
      rw [step, Session.connect, hs]
      exact hattended
  | opened admitted =>
      rw [step, Session.opened, hs]
      exact hattended
  | openFailed failure =>
      rw [step, Session.openFailed, hs]
      exact hattended
  | receive bytes => exact Session.attended_receive hs bytes
  | disconnect => exact hattended.disconnect
  | send frames => exact hattended.send frames
  | act act => exact Session.attended_act hs (c.use act)
  | manage op h => exact Or.inl hs

/-- The last hook leaves nothing active. -/
theorem Kept.of_attended (haccount : c.Account s.state)
    (hs : s.Attended c.recorded.handler.session) : c.Kept announced s := by
  refine ⟨haccount, fun hopen hclosed => ?_, fun hopen id hactive => ?_⟩
  · exact absurd (hs.resolve_left hopen).1 hclosed
  · obtain ⟨-, state, hstate⟩ := hs.resolve_left hopen
    have hfiles : c.files s.state.1 = (c.files state.1).onDisconnected := by
      rw [hstate]
      exact c.files_disconnected state.1
    rw [hfiles] at hactive
    exact absurd hactive (Transfers.stage_failActive id _)

/-- While there is no connection, only what is started becomes active. -/
theorem Kept.idle (h : c.Kept announced s) (hs : s.phase ≠ .connected)
    (haccount : c.Account s'.state) {ops : List Operation}
    (hstate : s'.state.2 = s.state.2 ++ ops)
    (hids : Operation.issued (Transfers.empty true) s'.state.2 < UInt32.size)
    (hphase : s'.phase ≠ .disconnected → s.phase ≠ .disconnected)
    (hhooks : Hook.connected ∈ s'.hooks → Hook.connected ∈ s.hooks) :
    c.Kept (announced ++ (Operation.started (c.files s.state.1).transfers ops).map (·, s.phase))
      s' := by
  refine ⟨haccount, fun _ hclosed hmem => h.before hs (hphase hclosed) (hhooks hmem),
    fun _ id hactive => ?_⟩
  rw [hstate, Operation.issued_append] at hids
  rw [haccount, hstate, Operation.run_append] at hactive
  have hnumbered := numbered_run s.state.2 numbered_empty (by omega)
  rw [Nat.zero_add] at hnumbered
  rw [h.account]
  rcases Operation.active_run hnumbered hids hactive with hbefore | hstarted
  · rw [← h.account] at hbefore
    obtain ⟨phase, hmem, hopen, hnone⟩ := h.stranded hs id hbefore
    exact ⟨phase, List.mem_append_left _ hmem, hopen,
      fun hclosed hmem => hnone hclosed (hhooks hmem)⟩
  · exact ⟨s.phase, List.mem_append_right _ (List.mem_map_of_mem hstarted), hs,
      fun hclosed hmem => h.before hs hclosed (hhooks hmem)⟩

theorem Kept.step (h : c.Kept announced s) (event : Event)
    (hids : Operation.issued (Transfers.empty true) (c.recorded.step s event).state.2 <
      UInt32.size) :
    c.Kept (announced ++ (event.starts s.isConnected (c.files s.state.1)).map (·, s.phase))
      (c.recorded.step s event) := by
  have haccount := account_step h.account event
  by_cases hs : s.phase = .connected
  · exact .of_attended haccount (c.recorded.attended_step hs event)
  have hopen : s.isConnected = false := by
    rw [← Bool.not_eq_true, Session.isConnected_eq_true_iff]
    exact hs
  have hrest : c.Kept (announced ++ []) s := by
    rw [List.append_nil]
    exact h
  cases event with
  | connect =>
      by_cases hnew : s.phase = .new
      · have hstep : c.recorded.step s .connect = { s with phase := .connecting } := by
          rw [FileCarrier.step, Session.connect, if_pos hnew]
        rw [hstep] at haccount hids ⊢
        refine h.idle hs haccount (List.append_nil _).symm hids (fun _ => ?_) id
        rw [hnew]
        exact Phase.noConfusion
      · have hstep : c.recorded.step s .connect = s := by
          rw [FileCarrier.step, Session.connect, if_neg hnew]
        rw [hstep]
        exact hrest
  | opened admitted =>
      by_cases hconnecting : s.phase = .connecting
      · cases admitted with
        | true => exact .of_attended haccount (Session.attended_opened hconnecting)
        | false =>
            have hstep : c.recorded.step s (.opened false) = { s with phase := .disconnected } := by
              rw [FileCarrier.step, Session.opened, if_pos hconnecting, if_neg Bool.false_ne_true]
            rw [hstep] at haccount hids ⊢
            exact h.idle hs haccount (List.append_nil _).symm hids (absurd rfl) id
      · have hstep : c.recorded.step s (.opened admitted) = s := by
          rw [FileCarrier.step, Session.opened, if_neg hconnecting]
        rw [hstep]
        exact hrest
  | openFailed failure =>
      by_cases hconnecting : s.phase = .connecting
      · have hstep : c.recorded.step s (.openFailed failure) =
            { s with
              phase := .disconnected
              state := c.recorded.handler.connectFailed failure s.state }.note
                (.connectFailed failure) := by
          rw [FileCarrier.step, Session.openFailed, if_pos hconnecting]
          rfl
        rw [hstep] at haccount hids ⊢
        have hidle := h.idle hs haccount rfl hids (absurd rfl) ?_
        · rw [Operation.started_eq_nil (c.direction?_connectFailed _)] at hidle
          exact hidle
        · intro hmem
          exact (List.mem_append.mp hmem).resolve_right (by simp)
      · have hstep : c.recorded.step s (.openFailed failure) = s := by
          rw [FileCarrier.step, Session.openFailed, if_neg hconnecting]
        rw [hstep]
        exact hrest
  | receive bytes =>
      have hstep : c.recorded.step s (.receive bytes) = s :=
        Session.receive_of_not_connected hs bytes
      rw [hstep]
      exact hrest
  | disconnect =>
      have hstep : c.recorded.step s .disconnect = s := Session.disconnect_of_not_connected hs
      rw [hstep]
      exact hrest
  | send frames =>
      have hstep : c.recorded.step s (.send frames) = s := Session.send_of_not_connected hs frames
      rw [hstep]
      exact hrest
  | act act =>
      have hstep : c.recorded.step s (.act act) = _ :=
        Session.act_of_not_connected hs (c.recorded.use act)
      rw [hstep] at haccount hids ⊢
      rw [hopen]
      exact h.idle hs haccount rfl hids id id
  | manage op hop =>
      have hidle := h.idle hs haccount rfl hids id id
      rw [Operation.started_eq_nil (by simpa using hop)] at hidle
      exact hidle

theorem Kept.run (h : c.Kept announced s) (events : List Event)
    (hids : Operation.issued (Transfers.empty true) (c.recorded.run s events).state.2 <
      UInt32.size) :
    c.Kept (announced ++ c.recorded.announced s events) (c.recorded.run s events) := by
  induction events generalizing announced s with
  | nil =>
      rw [FileCarrier.announced, List.append_nil]
      exact h
  | cons event events ih =>
      have hgrown := issued_le_of_prefix (c.prefix_run (c.recorded.step s event) events)
        (Transfers.empty true)
      rw [FileCarrier.announced, ← List.append_assoc]
      exact ih (h.step event (Nat.lt_of_le_of_lt hgrown hids)) hids

end Kept

/-! ## The end of a session -/

def transfers (c : FileCarrier σ) (s : Session σ) : Transfers := (c.files s.state).transfers

/-- A session that has not been used yet, whose transfers are its own. -/
structure Fresh (c : FileCarrier σ) (s : Session σ) : Prop where
  phase : s.phase = .new
  hooks : s.hooks = []
  transfers : c.transfers s = Transfers.empty true

theorem Fresh.kept {c : FileCarrier σ} {s : Session σ} (h : c.Fresh s) :
    c.Kept [] (s.map (·, [])) := by
  refine ⟨h.transfers, fun _ _ hmem => ?_, fun _ id hactive => ?_⟩
  · have hnone : (s.map (·, ([] : List Operation))).hooks = [] := h.hooks
    rw [hnone] at hmem
    cases hmem
  · have hempty : (c.files s.state).transfers = Transfers.empty true := h.transfers
    have hstage : (c.files s.state).transfers.stage id = .active := hactive
    rw [hempty] at hstage
    cases hstage

/-- Writing down what is done does not change what is started. -/
theorem announced_recorded (c : FileCarrier σ) (s : Session (σ × List Operation))
    (events : List Event) :
    c.recorded.announced s events = c.announced (s.map Prod.fst) events := by
  induction events generalizing s with
  | nil => rfl
  | cons event events ih =>
      rw [announced, announced, ih, map_step_recorded]
      rfl

/-- When a session is disconnected, nothing is active but what was started
from outside while there was no connection whose end was still to come. If
there is no such transfer, none is active. And all that was ever started and
is not active has been reported, unless it was cancelled. -/
theorem settled_run (c : FileCarrier σ) (s : Session σ) (hfresh : c.Fresh s) (events : List Event)
    (hids : Operation.issued (Transfers.empty true) (c.history s events) < UInt32.size)
    (hclosed : (c.run s events).phase = .disconnected) :
    (∀ id, (c.transfers (c.run s events)).stage id = .active →
        Stranded (c.announced s events) (c.run s events).hooks id) ∧
      ((∀ id, ¬ Stranded (c.announced s events) (c.run s events).hooks id) →
        (c.transfers (c.run s events)).active = 0) ∧
      (∀ id,
        Operation.ever (Operation.starts id) (Transfers.empty true) (c.history s events) = true →
        Operation.ever (Operation.cancels id) (Transfers.empty true) (c.history s events) = false →
        (c.transfers (c.run s events)).stage id ≠ .active →
        0 < (c.transfers (c.run s events)).reported id) := by
  have hkept := hfresh.kept.run events hids
  have hrun : (c.recorded.run (s.map (·, [])) events).map Prod.fst = c.run s events :=
    c.map_run_recorded (s.map (·, [])) events
  have hannounced : c.recorded.announced (s.map (·, [])) events = c.announced s events :=
    c.announced_recorded (s.map (·, [])) events
  rw [List.nil_append, hannounced] at hkept
  have haccount : c.transfers (c.run s events) =
      Operation.run (Transfers.empty true) (c.history s events) := by
    rw [← hrun]
    exact hkept.account
  have hopen : (c.run s events).phase ≠ .connected := by
    rw [hclosed]
    exact Phase.noConfusion
  have hstranded : ∀ id, (c.transfers (c.run s events)).stage id = .active →
      Stranded (c.announced s events) (c.run s events).hooks id := by
    rw [← hrun] at hopen ⊢
    exact hkept.stranded hopen
  refine ⟨hstranded, fun hnone => ?_, fun id hstarted hkeeps hended => ?_⟩
  · have hnumbered := numbered_run (c.history s events) numbered_empty (by omega)
    rw [← haccount] at hnumbered
    exact Transfers.active_eq_zero hnumbered.distinct
      fun id hactive => hnone id (hstranded id hactive)
  · have hfate := fate_run_empty (c.history s events) hids id
    rw [hstarted, hkeeps, ← haccount] at hfate
    exact hfate.reported_pos hended

/-! ### A file that is sent before there is a connection -/

def fileServer : Server where
  files :=
    { transfers := Transfers.empty true
      disk := Disk.empty.store (.ofString "f") [1]
      receiveDir := .ofString "in"
      outgoing := none
      chunkDelay := 0
      due := [] }
  stress := Stress.Receiver.new ⟨fun _ => 0, 0⟩

/-- The file is announced over a connection that ends then. -/
def announcedAndClosed : List Event :=
  [.connect, .opened true, .act (.sendFile (.ofString "f") 1), .disconnect]

/-- The end of the connection fails the file and reports it. -/
theorem settled_run_announcedAndClosed :
    Server.carrier.Fresh (Session.create 8 fileServer) ∧
      (Server.carrier.transfers
        (Server.carrier.run (Session.create 8 fileServer) announcedAndClosed)).active = 0 ∧
      0 < (Server.carrier.transfers
        (Server.carrier.run (Session.create 8 fileServer) announcedAndClosed)).reported 1 := by
  have hfresh : Server.carrier.Fresh (Session.create 8 fileServer) := ⟨rfl, rfl, rfl⟩
  have hids : Operation.issued (Transfers.empty true)
      (Server.carrier.history (Session.create 8 fileServer) announcedAndClosed) < UInt32.size := by
    decide +kernel
  have hclosed : (Server.carrier.run (Session.create 8 fileServer) announcedAndClosed).phase =
      .disconnected := by decide +kernel
  obtain ⟨-, hactive, hreported⟩ :=
    settled_run Server.carrier _ hfresh announcedAndClosed hids hclosed
  have hannounced : Server.carrier.announced (Session.create 8 fileServer) announcedAndClosed =
      [(1, .connected)] := by decide +kernel
  refine ⟨hfresh, hactive fun id hstranded => ?_,
    hreported 1 (by decide +kernel) (by decide +kernel) (by decide +kernel)⟩
  obtain ⟨phase, hmem, hopen, -⟩ := hstranded
  rw [hannounced, List.mem_singleton] at hmem
  exact hopen (congrArg Prod.snd hmem)

/-- The file is announced after the connection could not be opened. -/
def announcedTooLate : List Event :=
  [.connect, .openFailed .refused, .act (.sendFile (.ofString "f") 1)]

/-- A transfer does not always end with its session. -/
theorem not_settled_run :
    ¬ ∀ (s : Session Endpoint) (events : List Event), Endpoint.carrier.Fresh s →
      Operation.issued (Transfers.empty true) (Endpoint.carrier.history s events) < UInt32.size →
        (Endpoint.carrier.run s events).phase = .disconnected →
          (Endpoint.carrier.transfers (Endpoint.carrier.run s events)).active = 0 ∧
            ∀ id, Operation.ever (Operation.starts id) (Transfers.empty true)
                (Endpoint.carrier.history s events) = true →
              Operation.ever (Operation.cancels id) (Transfers.empty true)
                (Endpoint.carrier.history s events) = false →
              0 < (Endpoint.carrier.transfers (Endpoint.carrier.run s events)).reported id := by
  intro hsettled
  have hactive := (hsettled (Session.create 8 fileServer.files) announcedTooLate ⟨rfl, rfl, rfl⟩
    (by decide +kernel) (by decide +kernel)).1
  revert hactive
  decide +kernel

end FileCarrier

end SessionEngine
