import SessionEngine.Stress.Stats

/-!
# What statistics come to

Statistics are a running fold, one message after the other. Seen from the end
they are the number of messages, the greatest and the least latency among them
(`latencyMax_recordAll`, `latencyMin_recordAll`), and whatever else the messages
say together.
-/

namespace SessionEngine

namespace Stress

/-- A message, and when it arrived. -/
structure Arrival where
  data : Data
  payloadLength : Nat
  now : Instant

def Arrival.latency (a : Arrival) : UInt32 := Stats.latency a.data a.now

namespace Stats

def recordAll (arrivals : List Arrival) (s : Stats) : Stats :=
  arrivals.foldl (fun s a => s.record a.data a.payloadLength a.now) s

theorem recordAll_concat (arrivals : List Arrival) (a : Arrival) (s : Stats) :
    s.recordAll (arrivals ++ [a]) = (s.recordAll arrivals).record a.data a.payloadLength a.now :=
  List.foldl_append

@[simp] theorem expected_recordAll (arrivals : List Arrival) (s : Stats) :
    (s.recordAll arrivals).expected = s.expected := by
  induction arrivals generalizing s with
  | nil => rfl
  | cons a arrivals ih => exact ih _

@[simp] theorem received_recordAll (arrivals : List Arrival) (s : Stats) :
    (s.recordAll arrivals).received = s.received + arrivals.length := by
  induction arrivals generalizing s with
  | nil => rfl
  | cons a arrivals ih =>
      rw [List.length_cons, Nat.add_comm arrivals.length, ← Nat.add_assoc]
      exact ih _

theorem latencyMax_eq_foldl (arrivals : List Arrival) (s : Stats) :
    (s.recordAll arrivals).latencyMax = (arrivals.map Arrival.latency).foldl max s.latencyMax := by
  induction arrivals generalizing s with
  | nil => rfl
  | cons a arrivals ih => exact ih _

theorem latencyMin_eq_foldl (arrivals : List Arrival) {s : Stats} {least : UInt32}
    (hs : s.latencyMin = some least) :
    (s.recordAll arrivals).latencyMin =
      some ((arrivals.map Arrival.latency).foldl min least) := by
  induction arrivals generalizing s least with
  | nil => exact hs
  | cons a arrivals ih =>
      refine ih (s := s.record a.data a.payloadLength a.now) ?_
      rw [record, hs]
      rfl

/-- The greatest latency, zero if there is none. -/
theorem latencyMax_recordAll (expected : UInt32) (arrivals : List Arrival) :
    ((start expected).recordAll arrivals).latencyMax =
      (arrivals.map Arrival.latency).max?.getD 0 := by
  rw [latencyMax_eq_foldl]
  cases arrivals with
  | nil => rfl
  | cons a arrivals =>
      have hzero : max 0 a.latency = a.latency := if_pos UInt32.zero_le
      rw [List.map_cons, List.max?_cons', Option.getD_some, List.foldl_cons]
      exact congrArg (fun greatest => (arrivals.map Arrival.latency).foldl max greatest) hzero

/-- The least latency, if there is any. -/
theorem latencyMin_recordAll (expected : UInt32) (arrivals : List Arrival) :
    ((start expected).recordAll arrivals).latencyMin = (arrivals.map Arrival.latency).min? := by
  cases arrivals with
  | nil => rfl
  | cons a arrivals =>
      rw [List.map_cons, List.min?_cons']
      exact latencyMin_eq_foldl arrivals (s := (start expected).record a.data a.payloadLength a.now)
        rfl

end Stats

end Stress

end SessionEngine
