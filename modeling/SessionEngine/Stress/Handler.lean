import SessionEngine.Session.Handler
import SessionEngine.Stress.Stats

/-!
# Load tests

The receiver measures one run at a time. A start frame begins a run, whatever
was measured before; the message that completes a run is answered by the
result, and the receiver is idle again. Any other frame, and a frame that is
too short, closes the connection.

The client sends a whole run when it is connected and reports how it ended:
with the first result that arrives, or with the connection.
-/

namespace SessionEngine

namespace Stress

/-! ## Clocks -/

/-- A clock that has been read some number of times. -/
structure Clock where
  /-- What each reading shows. -/
  reading : Nat → Instant
  /-- How often it was read. -/
  ticks : Nat

namespace Clock

def now (c : Clock) : Instant := c.reading c.ticks

def tick (c : Clock) : Clock := { c with ticks := c.ticks + 1 }

def still : Clock := ⟨fun _ => 0, 0⟩

end Clock

/-! ## The receiver -/

structure Receiver where
  stats : Stats
  clock : Clock

namespace Receiver

def new (clock : Clock) : Receiver := ⟨Stats.idle, clock⟩

/-- Counts a message. The one that completes the run is answered. -/
def count (data : Data) (payloadLength : Nat) (r : Receiver) : Receiver × List Action :=
  let stats := Stats.record data payloadLength r.clock.now r.stats
  let clock := r.clock.tick
  if stats.isComplete then
    (⟨Stats.idle, clock⟩,
      (Frame.build? resultId stats.result.body).toList.map .send)
  else (⟨stats, clock⟩, [])

/-- The reaction of the receiver to a frame, unless it is malformed. -/
def accept (frame : Bytes) (r : Receiver) : Except FrameError (Receiver × List Action) :=
  match Frame.body 0 frame with
  | .error e => .error e
  | .ok (header, _) =>
      if header.id = startId then
        (Start.decode frame).map fun start =>
          ({ r with stats := Stats.start start.messageCount }, [])
      else if header.id = dataId then
        (Data.decode frame).map fun (data, payloadLength) => r.count data payloadLength
      else .error (.unexpectedId header.id)

def packet (frame : Bytes) (r : Receiver) : Receiver × List Action :=
  match r.accept frame with
  | .ok reaction => reaction
  | .error _ => (r, [.disconnect])

def handler : PacketHandler Receiver := { PacketHandler.silent with packet := packet }

end Receiver

/-! ## The client -/

/-- The frames of a run up to its last message, given the time of each. -/
def run (start : Start) (clock : Clock) : List Bytes :=
  (Frame.build? startId start.body).toList ++
    (List.range start.messageCount.toNat).filterMap fun i =>
      Frame.build? dataId
        ((Data.mk (UInt32.ofNat i) (clockMs (clock.reading (clock.ticks + i)))).body
          start.payloadLength)

/-- Why a run has no result. -/
inductive RunError where
  | connectFailed (failure : ConnectFailure)
  | disconnected
deriving DecidableEq

namespace RunError

def message : RunError → String
  | connectFailed failure => s!"connect failed: {failure.message}"
  | disconnected => "disconnected before the result arrived"

end RunError

/-- How a run ended. -/
abbrev Outcome := Except RunError Result

/-- A client with its run and what it has reported. -/
structure Client where
  start : Start
  clock : Clock
  /-- Whether an outcome was reported. -/
  reported : Bool
  outcomes : List Outcome

namespace Client

def new (start : Start) (clock : Clock) : Client := ⟨start, clock, false, []⟩

/-- Reports an outcome, unless one was reported before. -/
def report (outcome : Outcome) (c : Client) : Client :=
  if c.reported then c
  else { c with reported := true, outcomes := c.outcomes ++ [outcome] }

/-- The reaction of the client to a frame: any body that is long enough is
read as a result. -/
def packet (frame : Bytes) (c : Client) : Client :=
  match Result.decode frame with
  | .ok result => c.report (.ok result)
  | .error _ => c

/-- Sends a run and reports its outcome. -/
def handler : PacketHandler Client where
  connected c := (c, (run c.start c.clock).map .send)
  connectFailed failure c := c.report (.error (.connectFailed failure))
  packet frame c := (c.packet frame, [])
  disconnected c := c.report (.error .disconnected)

end Client

end Stress

end SessionEngine
