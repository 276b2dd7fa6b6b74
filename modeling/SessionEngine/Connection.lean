import SessionEngine.Session.Basic

/-!
# Connections

Two sessions and the bytes between them. What one side puts out reaches the
other in order, but not at once and not frame by frame: each delivery takes
some bytes off the front of what is under way, no more than the other side has
room for. Between deliveries, either side may be used from outside.

A connection is symmetric: what holds of one direction holds of the other by
`swap`.
-/

namespace SessionEngine

/-- One end of a connection. -/
structure Side (σ : Type) where
  handler : SessionHandler σ
  session : Session σ
  /-- How many bytes of what the other side has put out were delivered here. -/
  taken : Nat

namespace Side

variable {σ : Type}

def output (side : Side σ) : Bytes := side.session.sent.flatten

def opened (handler : SessionHandler σ) (readLength : Nat) (state : σ) : Side σ where
  handler := handler
  session := ((Session.create readLength state).connect.2).opened handler true
  taken := 0

def receive (bytes : Bytes) (side : Side σ) : Side σ :=
  { side with
    session := side.session.receive side.handler bytes
    taken := side.taken + bytes.length }

def act (f : Bool → σ → σ × List Action) (side : Side σ) : Side σ :=
  { side with
    session := (side.session.act side.handler fun connected s =>
      let (s, actions) := f connected s
      (s, actions, ())).1 }

end Side

/-- Two sides that are connected with each other. -/
structure Connection (σ τ : Type) where
  near : Side σ
  far : Side τ

namespace Connection

variable {σ τ : Type}

def swap (c : Connection σ τ) : Connection τ σ := ⟨c.far, c.near⟩

@[simp] theorem swap_swap (c : Connection σ τ) : c.swap.swap = c := rfl

/-- The bytes on their way to the far side. -/
def underWay (c : Connection σ τ) : Bytes := c.near.output.drop c.far.taken

/-- Delivers so many bytes to the far side, if they are there and fit. -/
def deliver? (n : Nat) (c : Connection σ τ) : Option (Connection σ τ) :=
  if 0 < n ∧ n ≤ c.underWay.length ∧ n ≤ c.far.session.buffer.free then
    some { c with far := c.far.receive (c.underWay.take n) }
  else none

/-- What a delivery does. -/
theorem deliver?_eq_some {n : Nat} {c c' : Connection σ τ} (h : c.deliver? n = some c') :
    0 < n ∧ c.far.taken + n ≤ c.near.output.length ∧ n ≤ c.far.session.buffer.free ∧
      (c.underWay.take n).length = n ∧
      c' = { c with far := c.far.receive (c.underWay.take n) } ∧
      c'.far.taken = c.far.taken + n := by
  rw [deliver?] at h
  split at h
  next hfits =>
      obtain ⟨hpos, hthere, hfree⟩ := hfits
      have htaken : (c.underWay.take n).length = n := by
        rw [List.length_take, Nat.min_eq_left hthere]
      obtain rfl := Option.some.inj h
      rw [underWay, List.length_drop] at hthere
      refine ⟨hpos, by omega, hfree, htaken, rfl, ?_⟩
      rw [Side.receive, htaken]
  next => cases h

inductive Step (σ τ : Type) where
  /-- The far side gets so many bytes. -/
  | toFar (n : Nat)
  /-- The near side gets so many bytes. -/
  | toNear (n : Nat)
  /-- The near side is used from outside. -/
  | near (f : Bool → σ → σ × List Action)
  /-- The far side is used from outside. -/
  | far (f : Bool → τ → τ × List Action)

def step? (c : Connection σ τ) : Step σ τ → Option (Connection σ τ)
  | .toFar n => c.deliver? n
  | .toNear n => (c.swap.deliver? n).map swap
  | .near f => some { c with near := c.near.act f }
  | .far f => some { c with far := c.far.act f }

def run? (steps : List (Step σ τ)) (c : Connection σ τ) : Option (Connection σ τ) :=
  steps.foldlM step? c

/-- Nothing is under way in either direction. -/
def Quiet (c : Connection σ τ) : Prop := c.underWay = [] ∧ c.swap.underWay = []

end Connection

end SessionEngine
