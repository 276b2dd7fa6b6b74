import SessionEngine.Bytes

/-!
# Send queues

Frames of one connection come from many callers and are written by one
flusher at a time. A caller appends its frame under the lock of the queue
and starts a flusher unless one is registered. A flusher waits for the writer
of the connection, which one at a time can have. Then it takes the whole queue
under the same lock, writes it without the lock, and comes back for more; it
signs off, again under the lock, when it finds the queue empty, and puts the
writer back after that.

Each of these stretches is one step here, and steps of any number of callers
and flushers may follow each other in any order. `Session.sent` is what
becomes of it: the accepted frames in the order of the lock.
-/

namespace SessionEngine

inductive Flusher where
  /-- It is registered and waits for the writer. -/
  | scheduled
  /-- It has the writer and looks at the queue next. -/
  | ready
  /-- It writes what it has taken. -/
  | writing (batch : List Bytes)
  /-- It has signed off and puts the writer back next. -/
  | leaving
deriving DecidableEq

namespace Flusher

/-- What a flusher has taken and not written yet. -/
def batch : Flusher → List Bytes
  | writing batch => batch
  | scheduled | ready | leaving => []

/-- Whether a flusher has the writer. -/
def hasWriter : Flusher → Bool
  | scheduled => false
  | ready | writing _ | leaving => true

/-- Whether a flusher has not signed off. -/
def isActive : Flusher → Bool
  | leaving => false
  | scheduled | ready | writing _ => true

end Flusher

/-- The frames of a connection on their way. -/
structure SendQueue where
  accepted : List Bytes
  /-- The frames that no flusher has taken. -/
  queued : List Bytes
  /-- Whether a flusher is registered. -/
  registered : Bool
  /-- The flushers that were started and are not gone. -/
  flushers : List Flusher
  written : List Bytes
deriving DecidableEq

namespace SendQueue

def empty : SendQueue := ⟨[], [], false, [], []⟩

inductive Step where
  | send (frame : Bytes)
  /-- The flusher at a place gets the writer. -/
  | start (flusher : Nat)
  /-- The flusher at a place looks at the queue. -/
  | drain (flusher : Nat)
  /-- The flusher at a place has written what it took. -/
  | complete (flusher : Nat)
  /-- The flusher at a place puts the writer back and is gone. -/
  | exit (flusher : Nat)
deriving DecidableEq

/-- Appends a frame and starts a flusher unless one is registered. -/
def send (frame : Bytes) (q : SendQueue) : SendQueue :=
  { q with
    accepted := q.accepted ++ [frame]
    queued := q.queued ++ [frame]
    registered := true
    flushers := if q.registered then q.flushers else q.flushers ++ [.scheduled] }

def start (flusher : Nat) (q : SendQueue) : Option SendQueue :=
  if q.flushers[flusher]? = some .scheduled ∧ ∀ f ∈ q.flushers, f.hasWriter = false then
    some { q with flushers := q.flushers.set flusher .ready }
  else none

/-- Takes the whole queue, or signs off if it is empty. -/
def drain (flusher : Nat) (q : SendQueue) : Option SendQueue :=
  if q.flushers[flusher]? = some .ready then
    some <|
      if q.queued = [] then
        { q with registered := false, flushers := q.flushers.set flusher .leaving }
      else
        { q with queued := [], flushers := q.flushers.set flusher (.writing q.queued) }
  else none

def complete (flusher : Nat) (q : SendQueue) : Option SendQueue :=
  match q.flushers[flusher]? with
  | some (.writing batch) =>
      some { q with
        written := q.written ++ batch
        flushers := q.flushers.set flusher .ready }
  | _ => none

def exit (flusher : Nat) (q : SendQueue) : Option SendQueue :=
  if q.flushers[flusher]? = some .leaving then
    some { q with flushers := q.flushers.eraseIdx flusher }
  else none

def step (q : SendQueue) : Step → Option SendQueue
  | .send frame => some (q.send frame)
  | .start flusher => q.start flusher
  | .drain flusher => q.drain flusher
  | .complete flusher => q.complete flusher
  | .exit flusher => q.exit flusher

/-- Makes steps one after the other. Those that cannot be made are left out. -/
def run (q : SendQueue) (steps : List Step) : SendQueue :=
  steps.foldl (fun q step => (q.step step).getD q) q

/-- What flushers have taken and not written yet. -/
def inFlight (q : SendQueue) : List Bytes := q.flushers.flatMap Flusher.batch

end SendQueue

end SessionEngine
