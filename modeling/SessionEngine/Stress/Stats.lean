import SessionEngine.Stress.Message

/-!
# Load test statistics

What the receiver of a run keeps while messages arrive, and the result that
it reports. Times are in microseconds since an epoch and may be negative.

A latency is the difference of two clocks of 32 bits in milliseconds, so it
wraps around. The data rate covers the time from the first to the last
arrival and is zero while that time is not positive.
-/

namespace SessionEngine

namespace Stress

/-- A point in time, in microseconds since the epoch. The clock of a system may
count nanoseconds; what is finer than a microsecond is cut off when it is read,
so that the time between two readings can be up to one microsecond off. -/
abbrev Instant := Int

/-- The low 32 bits of the full milliseconds up to an instant. -/
def clockMs (t : Instant) : UInt32 :=
  UInt32.ofNat ((Int.fdiv t 1000).emod UInt32.size).toNat

/-- What was measured so far. -/
structure Stats where
  /-- The number of messages announced, zero if no run was. -/
  expected : UInt32
  received : Nat
  bytes : Nat
  /-- The sum of the latencies, in milliseconds. -/
  latencySum : Float
  latencyMax : UInt32
  latencyMin : Option UInt32
  firstArrival : Option Instant
  lastArrival : Option Instant

namespace Stats

/-- Nothing measured yet, in a run of so many messages. -/
def start (expected : UInt32) : Stats where
  expected := expected
  received := 0
  bytes := 0
  latencySum := 0
  latencyMax := 0
  latencyMin := none
  firstArrival := none
  lastArrival := none

def idle : Stats := start 0

/-- How long a message was under way. -/
def latency (data : Data) (now : Instant) : UInt32 := clockMs now - data.timestamp

def record (data : Data) (payloadLength : Nat) (now : Instant) (s : Stats) : Stats :=
  let latency := latency data now
  { s with
    received := s.received + 1
    bytes := s.bytes + payloadLength
    latencySum := s.latencySum + latency.toFloat
    latencyMax := max s.latencyMax latency
    latencyMin := some (s.latencyMin.elim latency (min · latency))
    firstArrival := some (s.firstArrival.getD now)
    lastArrival := some now }

def isComplete (s : Stats) : Bool := 0 < s.expected && s.expected.toNat ≤ s.received

/-- The time between the first and the last arrival in microseconds. -/
def interval (s : Stats) : Int :=
  match s.firstArrival, s.lastArrival with
  | some first, some last => last - first
  | _, _ => 0

/-- The mean latency in milliseconds. -/
def average (s : Stats) : Float :=
  if 0 < s.received then s.latencySum / s.received.toUInt64.toFloat else 0

/-- Megabytes per second. The time is taken in full milliseconds. -/
def rate (s : Stats) : Float :=
  let seconds := (Int64.ofInt (Int.tdiv s.interval 1000)).toFloat / 1000
  if 0 < seconds then s.bytes.toUInt64.toFloat / (1024 * 1024) / seconds else 0

def result (s : Stats) : Result where
  total := s.expected
  received := UInt32.ofNat s.received
  lost := UInt32.ofNat (s.expected.toNat - s.received)
  average := s.average.toFloat32.toBits
  maximum := s.latencyMax.toFloat32.toBits
  minimum := (s.latencyMin.getD 0).toFloat32.toBits
  rate := s.rate.toFloat32.toBits

end Stats

end Stress

end SessionEngine
