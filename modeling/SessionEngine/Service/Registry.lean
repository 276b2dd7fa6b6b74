/-!
# Registries

A registry keeps things in numbered slots, at most so many at a time. A thing
stays in its slot until it is taken out by the key of the slot; the slot that
became free last is filled first. Going through the registry means going
through its slots in order.
-/

namespace SessionEngine

/-- Slots for a limited number of things. -/
structure Registry (α : Type) where
  slots : List (Option α)
  /-- The free slots, the one that became free last in front. -/
  vacant : List Nat
  /-- How many things may be kept. -/
  limit : Nat
deriving DecidableEq

namespace Registry

variable {α : Type}

def empty (limit : Nat) : Registry α := ⟨[], [], limit⟩

def members (r : Registry α) : List α := r.slots.filterMap id

def count (r : Registry α) : Nat := r.members.length

def get? (key : Nat) (r : Registry α) : Option α := (r.slots[key]?).join

/-- Puts a thing into a slot and gives the key, unless too many are kept. -/
def insert? (a : α) (r : Registry α) : Option (Nat × Registry α) :=
  if r.count < r.limit then
    match r.vacant with
    | key :: vacant => some (key, { r with slots := r.slots.set key (some a), vacant })
    | [] => some (r.slots.length, { r with slots := r.slots ++ [some a] })
  else none

def remove (key : Nat) (r : Registry α) : Registry α :=
  { r with slots := r.slots.set key none, vacant := key :: r.vacant }

end Registry

end SessionEngine
