import SessionEngine.Proofs.Session.Hooks
import SessionEngine.Proofs.Transfer.Directions
import SessionEngine.Server

/-!
# Sessions that carry files

A handler that carries files, perhaps among other things, does nothing to its
transfers but operations that can be told beforehand (`FileCarrier`). The file
handler and the combined server are such handlers (`Endpoint.carrier`,
`Server.carrier`).

What happens to one session is a list of events (`FileCarrier.run`). A carrier
that writes down what it does leads the same session (`map_run_recorded`), so
all that was ever done to the transfers of a session is a run of operations
(`FileCarrier.history`).
-/

namespace SessionEngine

open Transfer

/-! ## What the hooks do -/

namespace Transfer.Endpoint

/-- What is done to the transfers when the connection is open. -/
def connectedOperations (e : Endpoint) : List Operation :=
  match e.outgoing with
  | none => []
  | some (path, chunkSize) =>
      .send e.disk path chunkSize ::
        match (e.transfers.send e.disk path chunkSize).2 with
        | .ok _ => []
        | .error _ => [.reportFailedSend path]

/-- What is done to the transfers when the connection could not be opened. -/
def connectFailedOperations (e : Endpoint) : List Operation :=
  e.outgoing.toList.map fun outgoing => .reportFailedSend outgoing.1

theorem transfers_onConnected (e : Endpoint) :
    e.onConnected.1.transfers = Operation.run e.transfers e.connectedOperations := by
  rw [onConnected, connectedOperations]
  cases e.outgoing with
  | none => rfl
  | some outgoing =>
      obtain ⟨path, chunkSize⟩ := outgoing
      dsimp only
      rw [sendFile, Operation.run_cons, Operation.perform]
      rcases e.transfers.send e.disk path chunkSize with ⟨transfers, error | ⟨id, frame⟩⟩ <;> rfl

theorem transfers_onConnectFailed (e : Endpoint) :
    e.onConnectFailed.transfers = Operation.run e.transfers e.connectFailedOperations := by
  rw [onConnectFailed, connectFailedOperations]
  cases e.outgoing <;> rfl

end Transfer.Endpoint

/-! ## Handlers that carry files -/

/-- A handler that carries files, and what it does to its transfers. -/
structure FileCarrier (σ : Type) where
  handler : PacketHandler σ
  files : σ → Endpoint
  /-- The state in which the files have become what these operations made of
  them. -/
  put : List Operation → Endpoint → σ → σ
  connectedOperations : Endpoint → List Operation
  connectFailedOperations : Endpoint → List Operation
  files_put : ∀ ops e s, files (put ops e s) = e
  transfers_connected : ∀ s, (files (handler.connected s).1).transfers =
    Operation.run (files s).transfers (connectedOperations (files s))
  transfers_connectFailed : ∀ failure s, (files (handler.connectFailed failure s)).transfers =
    Operation.run (files s).transfers (connectFailedOperations (files s))
  transfers_packet : ∀ frame s, (files (handler.packet frame s).1).transfers =
    Operation.run (files s).transfers ((files s).packetOperations .unfailing frame)
  files_disconnected : ∀ s, files (handler.disconnected s) = (files s).onDisconnected
  /-- A connection that could not be opened starts nothing. -/
  direction?_connectFailed : ∀ e, ∀ op ∈ connectFailedOperations e, op.direction? = none

def Transfer.Endpoint.carrier : FileCarrier Endpoint where
  handler := handler
  files e := e
  put _ e _ := e
  connectedOperations := connectedOperations
  connectFailedOperations := connectFailedOperations
  files_put _ _ _ := rfl
  transfers_connected := transfers_onConnected
  transfers_connectFailed _ := transfers_onConnectFailed
  transfers_packet := transfers_packetBy .unfailing
  files_disconnected _ := rfl
  direction?_connectFailed e op hop := by
    obtain ⟨outgoing, -, rfl⟩ := List.mem_map.mp hop
    rfl

/-- Frames of other protocols leave the files of a server alone. -/
theorem Server.files_packet (frame : Bytes) (s : Server) :
    (s.packet frame).1.files = (s.files.packet frame).1 := by
  rw [packet, Endpoint.packet, Endpoint.packetBy, Endpoint.kindOf?]
  cases Header.parse? frame with
  | none => rfl
  | some header =>
      rw [Option.bind_some, Option.bind_some, Protocol.ofId?]
      cases Kind.ofId? header.id with
      | some kind => rfl
      | none =>
          by_cases hchat : header.id = Chat.messageId ∨ header.id = Chat.replyId
          · rw [if_pos hchat]
          · rw [if_neg hchat]
            by_cases hstress : header.id = Stress.startId ∨ header.id = Stress.dataId ∨
                header.id = Stress.resultId
            · rw [if_pos hstress]
            · rw [if_neg hstress]

/-- A server carries files and speaks other protocols. -/
def Server.carrier : FileCarrier Server where
  handler := handler
  files := files
  put _ e s := { s with files := e }
  connectedOperations _ := []
  connectFailedOperations _ := []
  files_put _ _ _ := rfl
  transfers_connected _ := rfl
  transfers_connectFailed _ _ := rfl
  transfers_packet frame s := by
    rw [← s.files.transfers_packetBy .unfailing frame, ← Endpoint.packet, ← s.files_packet frame]
    rfl
  files_disconnected _ := rfl
  direction?_connectFailed _ _ hop := by cases hop

namespace FileCarrier

variable {σ : Type}

/-- The carrier that writes down what it does. -/
def recorded (c : FileCarrier σ) : FileCarrier (σ × List Operation) where
  handler :=
    { connected := fun s =>
        (((c.handler.connected s.1).1, s.2 ++ c.connectedOperations (c.files s.1)),
          (c.handler.connected s.1).2)
      connectFailed := fun failure s =>
        (c.handler.connectFailed failure s.1, s.2 ++ c.connectFailedOperations (c.files s.1))
      packet := fun frame s =>
        (((c.handler.packet frame s.1).1, s.2 ++ (c.files s.1).packetOperations .unfailing frame),
          (c.handler.packet frame s.1).2)
      disconnected := fun s => (c.handler.disconnected s.1, s.2 ++ [.failActive]) }
  files s := c.files s.1
  put ops e s := (c.put ops e s.1, s.2 ++ ops)
  connectedOperations := c.connectedOperations
  connectFailedOperations := c.connectFailedOperations
  files_put ops e s := c.files_put ops e s.1
  transfers_connected s := c.transfers_connected s.1
  transfers_connectFailed failure s := c.transfers_connectFailed failure s.1
  transfers_packet frame s := c.transfers_packet frame s.1
  files_disconnected s := c.files_disconnected s.1
  direction?_connectFailed := c.direction?_connectFailed

theorem shows_recorded (c : FileCarrier σ) :
    SessionHandler.Shows Prod.fst c.recorded.handler.session c.handler.session :=
  PacketHandler.shows_session (fun _ => rfl) (fun _ _ => rfl) (fun _ _ => rfl) fun _ => rfl

/-! ## What happens to a session -/

inductive Event where
  | connect
  | opened (admitted : Bool)
  | openFailed (failure : ConnectFailure)
  /-- A read brings these bytes. -/
  | receive (bytes : Bytes)
  /-- Either side closes the connection, or it breaks. -/
  | disconnect
  | send (frames : List Bytes)
  | act (act : Act)
  /-- Something is done to the transfers that starts none. -/
  | manage (op : Operation) (h : op.direction? = none)

/-- Lets the endpoint do something of its own accord. -/
def use (c : FileCarrier σ) (act : Act) (connected : Bool) (state : σ) : σ × List Action × Unit :=
  (c.put (act.operations connected (c.files state)) (act.perform connected (c.files state)).1 state,
    (act.perform connected (c.files state)).2, ())

def operate (c : FileCarrier σ) (op : Operation) (state : σ) : σ :=
  c.put [op] { c.files state with transfers := op.perform (c.files state).transfers } state

def step (c : FileCarrier σ) (s : Session σ) : Event → Session σ
  | .connect => s.connect.2
  | .opened admitted => s.opened c.handler.session admitted
  | .openFailed failure => s.openFailed c.handler.session failure
  | .receive bytes => s.receive c.handler.session bytes
  | .disconnect => s.disconnect c.handler.session
  | .send frames => s.send frames
  | .act act => (s.act c.handler.session (c.use act)).1
  | .manage op _ => { s with state := c.operate op s.state }

def run (c : FileCarrier σ) (s : Session σ) (events : List Event) : Session σ :=
  events.foldl c.step s

def history (c : FileCarrier σ) (s : Session σ) (events : List Event) : List Operation :=
  (c.recorded.run (s.map (·, [])) events).state.2

theorem map_step_recorded (c : FileCarrier σ) (s : Session (σ × List Operation)) (event : Event) :
    (c.recorded.step s event).map Prod.fst = c.step (s.map Prod.fst) event := by
  have hshows := c.shows_recorded
  cases event with
  | connect =>
      have hphase : (s.map Prod.fst).phase = s.phase := rfl
      rw [step, step, Session.connect, Session.connect, hphase]
      split <;> rfl
  | opened admitted => exact Session.map_opened hshows admitted s
  | openFailed failure => exact Session.map_openFailed hshows failure s
  | receive bytes => exact Session.map_receive hshows bytes s
  | disconnect => exact Session.map_disconnect hshows s
  | send frames => exact Session.map_send frames s
  | act act => exact Session.map_act hshows (fun _ _ => rfl) s
  | manage op h => rfl

/-- Writing down what is done changes nothing. -/
theorem map_run_recorded (c : FileCarrier σ) (s : Session (σ × List Operation))
    (events : List Event) :
    (c.recorded.run s events).map Prod.fst = c.run (s.map Prod.fst) events := by
  induction events generalizing s with
  | nil => rfl
  | cons event events ih =>
      have hrest := ih (c.recorded.step s event)
      rw [map_step_recorded] at hrest
      exact hrest

end FileCarrier

end SessionEngine
