import SessionEngine.Player
import SessionEngine.Service.Basic

/-!
# A bench for one session

One session of a service that has room for no other, with a disk beside it
and a peer that somebody drives.

Everything that a step sets going is carried out before the step ends: chunks
that are due at once are sent (`settle`), while chunks that wait for a pause
stay due.
-/

namespace SessionEngine

namespace Bench

/-- A service with room for one session that plays a part. -/
def service (kind : ServiceKind) (readLength : Nat) (p : Player) : Service Player :=
  Service.create kind Player.handler p readLength 1

def session? (s : Service Player) : Option (Session Player) := s.session? 1

/-- Lets somebody use the files beside the session. -/
def act {α : Type} (f : Bool → Transfer.Endpoint → Transfer.Endpoint × List Action × α)
    (s : Service Player) : Service Player × Option α :=
  s.act 1 (Player.onFiles f)

/-- Sends the first chunk that is due at once, if there is one. -/
def sendDue (s : Service Player) : Option (Service Player) :=
  match session? s with
  | none => none
  | some session =>
      match session.state.endpoint.due.findIdx? fun d => d.delay = 0 with
      | none => none
      | some place =>
          some (act (fun connected e =>
            let (e, actions) := e.sendDue place connected
            (e, actions, ())) s).1

/-- How many chunks can become due. -/
def chunksAhead (s : Service Player) : Nat :=
  match session? s with
  | none => 0
  | some session =>
      let e := session.state.endpoint
      e.due.length +
        e.transfers.book.foldl
          (fun n entry => n + (entry.2.chunksTotal - entry.2.chunksCompleted)) 0

def sendAllDue : (most : Nat) → Service Player → Service Player
  | 0, s => s
  | most + 1, s =>
      match sendDue s with
      | some s => sendAllDue most s
      | none => s

def settle (s : Service Player) : Service Player := sendAllDue (chunksAhead s) s

/-- The peer is there: it dials a server and is dialled by a client. -/
def meet (failure : Option ConnectFailure) (s : Service Player) : Service Player :=
  match s.kind with
  | .server => s.accept.2
  | .client =>
      let (id, s) := s.createSession
      (s.dial id failure).2

end Bench

end SessionEngine
