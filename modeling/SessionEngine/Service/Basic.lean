import SessionEngine.Net.Listen
import SessionEngine.Service.Registry
import SessionEngine.Session.Basic

/-!
# Services

A service owns sessions and keeps those that are connected in a registry of
limited size. A server gets its sessions from a listener, which turns peers
away while the registry is full; a client opens as many connections as there
is room for.

Sessions have ids in the order of their creation, from one. A session enters
the registry when its connection is there and leaves it when the connection
ends; what it keeps of that is the key of its slot (`Member.key`). Every
operation that can end a session goes through `update`, which lets the
session leave the registry.
-/

namespace SessionEngine

/-- How a service comes to its sessions. -/
inductive ServiceKind where
  | server
  | client
deriving DecidableEq, Repr

/-- Why a service cannot start. -/
inductive ServiceError where
  | atCapacity (limit : Nat)
  | alreadyStarted
  /-- There is no listening at the address. -/
  | bind (cause : ListenFailure)
deriving DecidableEq, Repr

namespace ServiceError

def message (address : String) : ServiceError → String
  | atCapacity limit => s!"service is at capacity ({limit} sessions)"
  | alreadyStarted => "service is already listening"
  | bind cause => s!"failed to listen on {address}: {cause.message}"

def details (address : String) : ServiceError → String
  | atCapacity limit => s!"AtCapacity \x7b max: {limit} \x7d"
  | alreadyStarted => "AlreadyStarted"
  | bind cause => s!"Bind \x7b addr: {address}, source: {cause.details} \x7d"

end ServiceError

abbrev SessionId := Nat

/-- A session and the key of its slot in the registry. -/
structure Member (σ : Type) where
  session : Session σ
  key : Option Nat

/-- A set of sessions, with handler states `σ`. -/
structure Service (σ : Type) where
  kind : ServiceKind
  handler : SessionHandler σ
  /-- The handler state of a new session. -/
  fresh : σ
  /-- The nominal length of a read. -/
  readLength : Nat
  registry : Registry SessionId
  /-- All sessions ever created. -/
  members : List (Member σ)
  listening : Bool

namespace Service

variable {σ : Type}

def create (kind : ServiceKind) (handler : SessionHandler σ) (fresh : σ) (readLength limit : Nat) :
    Service σ where
  kind := kind
  handler := handler
  fresh := fresh
  readLength := readLength
  registry := Registry.empty limit
  members := []
  listening := false

def member? (id : SessionId) (s : Service σ) : Option (Member σ) :=
  if id = 0 then none else s.members[id - 1]?

def session? (id : SessionId) (s : Service σ) : Option (Session σ) :=
  (s.member? id).map Member.session

def modify (id : SessionId) (f : Member σ → Member σ) (s : Service σ) : Service σ :=
  if id = 0 then s else { s with members := s.members.modify (id - 1) f }

def count (s : Service σ) : Nat := s.registry.count

/-- The ids of the registered sessions, in the order of their slots. -/
def live (s : Service σ) : List SessionId := s.registry.members

/-! ## Creating and registering -/

def createSession (s : Service σ) : SessionId × Service σ :=
  (s.members.length + 1,
    { s with members := s.members ++ [⟨Session.create s.readLength s.fresh, none⟩] })

/-- Registers a session. Says whether there was room. -/
def add (id : SessionId) (s : Service σ) : Bool × Service σ :=
  match s.registry.insert? id with
  | some (key, registry) =>
      (true, { s with registry }.modify id fun m => { m with key := some key })
  | none => (false, s)

/-- Takes a session out of the slot whose key it holds, if it is in there. -/
def release (id : SessionId) (s : Service σ) : Service σ :=
  match (s.member? id).bind Member.key with
  | none => s
  | some key =>
      if s.registry.get? key = some id then
        { s with registry := s.registry.remove key }.modify id fun m => { m with key := none }
      else s

/-- Changes a session. If that ends its connection, it leaves the registry. -/
def update (id : SessionId) (f : Session σ → Session σ) (s : Service σ) : Service σ :=
  match s.member? id with
  | none => s
  | some m =>
      let session := f m.session
      let s := s.modify id fun m => { m with session }
      if m.session.isConnected ∧ !session.isConnected then s.release id else s

/-- Lets somebody use the handler of a session from outside of its hooks. -/
def act {α : Type} (id : SessionId) (f : Bool → σ → σ × List Action × α) (s : Service σ) :
    Service σ × Option α :=
  match s.session? id with
  | none => (s, none)
  | some session =>
      let (session, result) := session.act s.handler f
      (s.update id fun _ => session, some result)

/-! ## Connections -/

def complete (id : SessionId) (s : Service σ) : Service σ :=
  let (admitted, s) := s.add id
  let s := s.modify id fun m => { m with session := m.session.opened s.handler admitted }
  match s.member? id with
  | some m => if admitted ∧ !m.session.isConnected then s.release id else s
  | none => s

/-- A session opens a connection, which works once. `failure` says what
stands in the way, if anything does. -/
def dial (id : SessionId) (failure : Option ConnectFailure) (s : Service σ) :
    Bool × Service σ :=
  match s.member? id with
  | none => (false, s)
  | some m =>
      match m.session.connect with
      | (false, _) => (false, s)
      | (true, session) =>
          let s := s.modify id fun m => { m with session }
          match failure with
          | none => (true, s.complete id)
          | some failure =>
              (true, s.modify id fun m =>
                { m with session := m.session.openFailed s.handler failure })

/-- A peer has come to the listener. There must be room for a session before
one is created. -/
def accept (s : Service σ) : Option SessionId × Service σ :=
  if s.count < s.registry.limit then
    let (id, s) := s.createSession
    (some id, (s.dial id none).2)
  else (none, s)

/-- Starts a server, unless something is in the way of listening. -/
def listen (obstacle : Option ListenFailure) (s : Service σ) :
    Except ServiceError (Service σ) :=
  if s.listening then .error .alreadyStarted
  else
    match obstacle with
    | some cause => .error (.bind cause)
    | none => .ok { s with listening := true }

/-- Starts a client: opens a connection for each free slot. -/
def dialAll (failure : Option ConnectFailure) (s : Service σ) :
    Except ServiceError (Service σ) :=
  let room := s.registry.limit - s.count
  if room = 0 then .error (.atCapacity s.registry.limit)
  else
    .ok <| room.fold
      (fun _ _ (s : Service σ) =>
        let (id, s) := s.createSession
        (s.dial id failure).2)
      s

def start (obstacle : Option ListenFailure) (failure : Option ConnectFailure) (s : Service σ) :
    Except ServiceError (Service σ) :=
  match s.kind with
  | .server => s.listen obstacle
  | .client => s.dialAll failure

/-! ## Running and ending -/

def disconnect (id : SessionId) (s : Service σ) : Service σ :=
  s.update id (Session.disconnect s.handler)

def feed (id : SessionId) (bytes : Bytes) (s : Service σ) : Service σ :=
  s.update id (Session.feed s.handler bytes)

def broadcast (frame : Bytes) (s : Service σ) : Service σ :=
  s.live.foldl (fun s id => s.update id (Session.send [frame])) s

/-- Ends the listener and all registered sessions, in the order of their
slots. -/
def close (s : Service σ) : Service σ :=
  s.live.foldl (fun s id => s.disconnect id) { s with listening := false }

end Service

end SessionEngine
