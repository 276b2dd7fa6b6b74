import SessionEngine.Bytes

/-!
# Writing several buffers at once

A writer is offered a list of slices and accepts some bytes from their front,
perhaps fewer than offered, so writing goes on with what is left until all is
written or the writer refuses. Empty buffers are not offered: a writer that
accepts nothing of nothing would look stuck.
-/

namespace SessionEngine

namespace GatherWrite

/-- How a writer answers an offer. -/
inductive Response where
  /-- So many bytes were accepted. -/
  | accepted (n : Nat)
  | failed
deriving DecidableEq

/-- Somebody who accepts bytes, with a state `ω`. -/
abbrev Writer (ω : Type) := ω → List Bytes → ω × Response

/-- Why writing ended early. -/
inductive WriteFailure where
  /-- The writer accepted nothing. -/
  | wroteZero
  | writerFailed
deriving DecidableEq

def total (slices : List Bytes) : Nat := slices.flatten.length

/-- Drops the first `n` bytes, and slices that have nothing left. -/
def advance (n : Nat) : List Bytes → List Bytes
  | [] => []
  | slice :: rest =>
      if slice.length ≤ n then advance (n - slice.length) rest else slice.drop n :: rest

/-- What is left is what was there without the bytes that were dropped. -/
theorem flatten_advance (n : Nat) (slices : List Bytes) :
    (advance n slices).flatten = slices.flatten.drop n := by
  induction slices generalizing n with
  | nil => simp [advance]
  | cons slice rest ih =>
      simp only [advance]
      split
      next h => rw [ih, List.flatten_cons, List.drop_append, List.drop_of_length_le h]; rfl
      next h =>
          rw [List.flatten_cons, List.flatten_cons, List.drop_append_of_le_length (by omega)]

theorem total_advance (n : Nat) (slices : List Bytes) :
    total (advance n slices) = total slices - n := by
  rw [total, total, flatten_advance, List.length_drop]

/-- Offers slices until all are written. Gives the bytes that were accepted,
behind those accepted before, and how it ended. A writer that claims more than
it was offered has accepted all of it. -/
def loop {ω : Type} (writer : Writer ω) (state : ω) (written : Bytes) (slices : List Bytes) :
    ω × Bytes × Except WriteFailure Unit :=
  if slices = [] then (state, written, .ok ())
  else
    match writer state slices with
    | (state, .failed) => (state, written, .error .writerFailed)
    | (state, .accepted n) =>
        let n := min n (total slices)
        if n = 0 then (state, written, .error .wroteZero)
        else loop writer state (written ++ slices.flatten.take n) (advance n slices)
termination_by total slices
decreasing_by
  rw [total_advance]
  omega

/-- Writes buffers in order. Gives the bytes that were accepted, and their
number if these are all. -/
def writeAll {ω : Type} (writer : Writer ω) (state : ω) (buffers : List Bytes) :
    ω × Bytes × Except WriteFailure Nat :=
  let slices := buffers.filter (· ≠ [])
  match loop writer state [] slices with
  | (state, written, .ok ()) => (state, written, .ok (total slices))
  | (state, written, .error e) => (state, written, .error e)

end GatherWrite

end SessionEngine
