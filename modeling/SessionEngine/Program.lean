import SessionEngine.Config.Basic
import SessionEngine.Player
import SessionEngine.Service.Basic

/-!
# The program

What the program does under a configuration: a service, the part that its
sessions play, and when its work is done.
-/

namespace SessionEngine

namespace Program

/-- A server waits for its peers; in all other modes the program dials. -/
def kind (mode : Mode) : ServiceKind :=
  match mode with
  | .server => .server
  | .client | .sendFile | .stress => .client

def limit (c : Config) : Nat :=
  match c.mode with
  | .server => c.maxSessions
  | .client | .stress => c.sessions
  | .sendFile => 1

/-- How many threads work, when so many are asked for. -/
def workers (asked : Nat) : Nat := max asked 1

def part (c : Config) (clock : Stress.Clock) : Part :=
  match c.mode with
  | .server => .server (.new clock)
  | .client => .chatClient (.new c.message)
  | .stress => .stressClient (.new c.stress clock)
  | .sendFile => .files

def endpoint (c : Config) (disk : Disk) : Transfer.Endpoint where
  transfers := Transfer.Transfers.empty true
  disk := disk
  receiveDir := Path.ofString c.receiveDir
  outgoing :=
    if c.mode = .sendFile then
      c.file.map fun file => (Path.ofString file, UInt32.ofNat c.chunkSize)
    else none
  chunkDelay := c.chunkDelay
  due := []

def player (c : Config) (clock : Stress.Clock) (disk : Disk) : Player :=
  ⟨endpoint c disk, part c clock, []⟩

def service (c : Config) (clock : Stress.Clock) (disk : Disk) : Service Player :=
  Service.create (kind c.mode) Player.handler (player c clock disk) c.readLength (limit c)

/-- Whether a session has done its work. A server, and a client that chats, go
on until they are stopped. -/
def isDone (p : Player) : Bool :=
  match p.part with
  | .stressClient client => !client.outcomes.isEmpty
  | .files => !p.endpoint.transfers.reports.isEmpty
  | _ => false

def finished (c : Config) (s : Service Player) : Bool :=
  match c.mode with
  | .server | .client => false
  | .sendFile => s.members.any fun m => isDone m.session.state
  | .stress => s.members.all fun m => isDone m.session.state

/-- The clocks of a player show this time, and each reading of a client that
measures is later by the pause between its messages. -/
def atTime (now : Stress.Instant) (p : Player) : Player :=
  match p.part with
  | .server stress => { p with part := .server { stress with clock := ⟨fun _ => now, 0⟩ } }
  | .stressReceiver r => { p with part := .stressReceiver { r with clock := ⟨fun _ => now, 0⟩ } }
  | .stressClient c =>
      let step : Int := 1000 * c.start.interval.toNat
      { p with part := .stressClient { c with clock := ⟨fun i => now + i * step, 0⟩ } }
  | _ => p

end Program

end SessionEngine
