import SessionEngine.Session.Handler

/-!
# Handlers that do nothing useful

Handlers that only differ in how many bytes they claim to have consumed. They
show how a session treats such claims.
-/

namespace SessionEngine

/-- A rule for how many of the unread bytes are claimed. -/
inductive Sink where
  | all
  /-- One more than there are. -/
  | tooMany
  | negative
  | half
  | none
deriving DecidableEq, Repr

namespace Sink

/-- The claim for so many unread bytes. -/
def claim (unread : Nat) : Sink → Int
  | all => unread
  | tooMany => unread + 1
  | negative => -1
  | half => (unread / 2 : Nat)
  | none => 0

/-- A handler that claims by a rule and does nothing else. -/
def handler {σ : Type} (sink : Sink) : SessionHandler σ where
  connected s := (s, [])
  connectFailed _ s := s
  received data s := (s, [], sink.claim data.length)
  disconnected s := s

end Sink

end SessionEngine
