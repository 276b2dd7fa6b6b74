import SessionEngine.Proofs.Session.Calls
import SessionEngine.Proofs.Stress.Message
import SessionEngine.Stress.Handler

/-!
# How a load test ends for its client

Several calls have an outcome to report, and the first of them wins: whatever
the calls of a client are, it has reported the first outcome among them and
nothing else (`Client.Reported.foldl`). A session calls its handler in few ways,
so this comes to one line for each way a session can live (`Concludes`).

A client reads any frame that is long enough as a result, whatever its id
(`toOption_decode`). So what it reports is the first long frame, which need not
be a result frame.
-/

namespace SessionEngine

def Call.frame? : Call → Option Bytes
  | .packet frame _ => some frame
  | .connected _ | .connectFailed _ | .disconnected => none

namespace Stress

/-- What a frame says if it is read as a result. The id is not looked at. -/
def readResult? (frame : Bytes) : Option Result :=
  if Header.length + Result.bodyLength ≤ frame.length then some (Result.ofFrame frame) else none

theorem toOption_decode (frame : Bytes) :
    (Result.decode frame).toOption = readResult? frame := by
  by_cases hlong : Header.length + Result.bodyLength ≤ frame.length
  · rw [Result.decode_of_length_le hlong, readResult?, if_pos hlong]
    rfl
  · obtain ⟨error, herror⟩ : ∃ error, Result.decode frame = .error error :=
      Frame.exists_error_map_of_length_lt (Nat.lt_of_not_le hlong) _
    rw [herror, readResult?, if_neg hlong]
    rfl

/-- What the first frame says that can be read as a result. -/
def firstResult? (frames : List Bytes) : Option Result := frames.findSome? readResult?

/-- The outcome that a call has to report. -/
def outcome? : Call → Option Outcome
  | .connected _ => none
  | .connectFailed failure => some (.error (.connectFailed failure))
  | .packet frame _ => (readResult? frame).map .ok
  | .disconnected => some (.error .disconnected)

namespace Client

/-! ## The first outcome -/

/-- The client has reported this outcome, or nothing. -/
structure Reported (outcome : Option Outcome) (c : Client) : Prop where
  outcomes_eq : c.outcomes = outcome.toList
  reported_eq : c.reported = outcome.isSome

variable {c : Client} {first : Option Outcome}

theorem Reported.report (h : c.Reported first) (outcome : Outcome) :
    (c.report outcome).Reported (first.or (some outcome)) := by
  obtain ⟨houtcomes, hreported⟩ := h
  rw [Client.report, hreported]
  cases first with
  | none =>
      rw [houtcomes]
      exact ⟨rfl, rfl⟩
  | some earlier => exact ⟨houtcomes, hreported⟩

theorem Reported.packet (h : c.Reported first) (frame : Bytes) :
    (c.packet frame).Reported (first.or ((readResult? frame).map .ok)) := by
  rw [Client.packet, ← toOption_decode]
  cases Result.decode frame with
  | ok result => exact h.report _
  | error error =>
      rw [show (Except.error error : Except FrameError Result).toOption = none from rfl,
        Option.map_none, Option.or_none]
      exact h

theorem Reported.called (h : c.Reported first) (call : Call) :
    (handler.called c call).Reported (first.or (outcome? call)) := by
  cases call with
  | connected actions =>
      rw [show outcome? (.connected actions) = none from rfl, Option.or_none]
      exact h
  | connectFailed failure => exact h.report _
  | packet frame actions => exact h.packet frame
  | disconnected => exact h.report _

theorem Reported.foldl (h : c.Reported first) (calls : List Call) :
    (calls.foldl handler.called c).Reported (first.or (calls.findSome? outcome?)) := by
  induction calls generalizing c first with
  | nil =>
      rw [List.findSome?_nil, Option.or_none]
      exact h
  | cons call calls ih =>
      have hnext := ih (h.called call)
      rw [Option.or_assoc] at hnext
      rw [List.findSome?_cons]
      cases houtcome : outcome? call <;> rw [houtcome] at hnext <;> exact hnext

end Client

/-! ## How sessions end -/

/-- What a client reports in a phase of its session and after these calls. -/
inductive Concludes : Phase → List Call → List Outcome → Prop where
  /-- Nobody was told of anything. -/
  | silent {phase : Phase} (h : phase ≠ .connected) : Concludes phase [] []
  | failed (failure : ConnectFailure) :
      Concludes .disconnected [.connectFailed failure] [.error (.connectFailed failure)]
  | connected {calls : List Call} (h : Dialogue calls false) :
      Concludes .connected calls ((firstResult? (calls.filterMap Call.frame?)).map .ok).toList
  | result {calls : List Call} {closed : Bool} (h : Dialogue calls closed) {result : Result}
      (hresult : firstResult? (calls.filterMap Call.frame?) = some result) :
      Concludes .disconnected (calls ++ [.disconnected]) [.ok result]
  | noResult {calls : List Call} {closed : Bool} (h : Dialogue calls closed)
      (hnone : firstResult? (calls.filterMap Call.frame?) = none) :
      Concludes .disconnected (calls ++ [.disconnected]) [.error .disconnected]

/-- On an open connection only frames have an outcome to report. -/
theorem findSome?_dialogue {calls : List Call} {closed : Bool} (h : Dialogue calls closed) :
    calls.findSome? outcome? = (firstResult? (calls.filterMap Call.frame?)).map .ok := by
  induction h with
  | connected actions => rfl
  | @packet calls h frame actions ih =>
      have hframe : (calls ++ [Call.packet frame actions]).filterMap Call.frame? =
          calls.filterMap Call.frame? ++ [frame] := by
        rw [List.filterMap_append]
        rfl
      rw [List.findSome?_append, ih, hframe, firstResult?, firstResult?, List.findSome?_append,
        Option.map_or, List.findSome?_singleton, List.findSome?_singleton]
      rfl

theorem concludes_of_talk {phase : Phase} {calls : List Call} (h : Talk phase calls) :
    Concludes phase calls (calls.findSome? outcome?).toList := by
  cases h with
  | silent h => exact .silent h
  | failed failure => exact .failed failure
  | connected h =>
      rw [findSome?_dialogue h]
      exact .connected h
  | disconnected h =>
      rw [List.findSome?_append, findSome?_dialogue h]
      cases hfirst : firstResult? _ with
      | some result => exact .result h hfirst
      | none => exact .noResult h hfirst

/-- The session of a client after some events. The client writes down how it is
called. -/
def clientRun (readLength : Nat) (start : Start) (clock : Clock) (events : List Session.Event) :
    Session (Client × List Call) :=
  (Session.create readLength (Client.new start clock, [])).run Client.handler.traced.session events

section Runs

variable (readLength : Nat) (start : Start) (clock : Clock) (events : List Session.Event)

/-- A client has reported the first outcome that it was told of. -/
theorem outcomes_clientRun :
    (clientRun readLength start clock events).state.1.outcomes =
      ((clientRun readLength start clock events).state.2.findSome? outcome?).toList := by
  have hnew : (Client.new start clock).Reported none := ⟨rfl, rfl⟩
  rw [clientRun, Session.state_run_traced]
  exact (hnew.foldl _).outcomes_eq

/-- Whatever happens to the session of a client, the client has reported nothing
but its conclusion. -/
theorem concludes_clientRun :
    (clientRun readLength start clock events).map Prod.fst =
        (Session.create readLength (Client.new start clock)).run Client.handler.session events ∧
      Concludes (clientRun readLength start clock events).phase
        (clientRun readLength start clock events).state.2
        (clientRun readLength start clock events).state.1.outcomes := by
  have hcreated : (Session.create readLength (Client.new start clock, ([] : List Call))).Talks :=
    .silent Phase.noConfusion
  refine ⟨Session.map_run Client.handler.traced_shows events _, ?_⟩
  rw [outcomes_clientRun]
  exact concludes_of_talk (hcreated.run events)

end Runs

/-- The first frame that is read as a result need not be one: here it is a message
of a run. -/
theorem not_concludes_with_resultFrame :
    ¬ ∀ (readLength : Nat) (start : Start) (clock : Clock) (events : List Session.Event)
      (calls : List Call),
      (clientRun readLength start clock events).state.2 = calls ++ [.disconnected] →
        ∃ outcome, (clientRun readLength start clock events).state.1.outcomes = [outcome] ∧
          ∀ result, outcome = .ok result ↔
            ((calls.filterMap Call.frame?).find? fun frame => Bytes.word16 2 frame = resultId ∧
              Header.length + Result.bodyLength ≤ frame.length).map Result.ofFrame =
                some result := by
  intro hevery
  let frame : Bytes := [32, 0, 11, 0, 0, 0, 0, 0, 0, 0, 0, 0, 0, 0, 0, 0, 0, 0, 0, 0, 0, 0, 0, 0,
    0, 0, 0, 0, 0, 0, 0, 0]
  let events : List Session.Event := [.connect, .opened true, .receive frame, .disconnect]
  let calls : List Call :=
    [.connected [.send [16, 0, 10, 0, 0, 0, 0, 0, 0, 0, 0, 0, 0, 0, 0, 0]], .packet frame []]
  have hcalls : (clientRun 4 ⟨0, 0, 0⟩ .still events).state.2 = calls ++ [.disconnected] := by
    decide +kernel
  obtain ⟨outcome, houtcomes, hresult⟩ := hevery 4 ⟨0, 0, 0⟩ .still events calls hcalls
  have hreported := outcomes_clientRun 4 ⟨0, 0, 0⟩ .still events
  rw [hcalls, houtcomes] at hreported
  obtain rfl : outcome = .ok (Result.ofFrame frame) := List.singleton_inj.mp hreported
  have hframe := (hresult _).mp rfl
  rw [show (calls.filterMap Call.frame?).find? _ = none by decide] at hframe
  cases hframe

end Stress

end SessionEngine
