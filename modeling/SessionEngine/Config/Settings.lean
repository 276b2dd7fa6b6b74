import SessionEngine.Toml.Document

/-!
# Settings

What a configuration file gives. Every setting may be left out; names that are
not known are ignored. `Settings.ofTable?` reads the settings off a document
and fails if one of them has a value of the wrong kind or out of range.

The settings lie in sections. A section is a table, but its values may also be
listed in order without their names; a point in time passes for a section that
gives nothing.
-/

namespace SessionEngine

structure Settings where
  listen : Option String
  workers : Option Nat
  maxSessions : Option Nat
  sessions : Option Nat
  message : Option String
  readLength : Option Nat
  receiveDir : Option String
  chunkSize : Option Nat
  chunkDelay : Option Nat
  messageCount : Option Nat
  messageSize : Option Nat
  interval : Option Nat
  logLevel : Option String
deriving DecidableEq, Repr

namespace Settings

def none : Settings :=
  ⟨.none, .none, .none, .none, .none, .none, .none, .none, .none, .none, .none, .none, .none⟩

def text? : Toml.Value → Option String
  | .text s => s
  | _ => .none

def below? (bound : Nat) : Toml.Value → Option Nat
  | .integer n => if 0 ≤ n ∧ n < bound then n.toNat else .none
  | _ => .none

def count? (v : Toml.Value) : Option Nat := below? UInt64.size v

def small? (v : Toml.Value) : Option Nat := below? UInt32.size v

/-- The values of a section by name. A list has to reach up to the last name
that is not optional in a list. -/
def section? (title : String) (names : List String) (required : Nat) (t : Toml.Table) :
    Option (String → Option Toml.Value) :=
  match t.get? title with
  | .none => some fun _ => .none
  | some (.table _ entries) => some fun name => Toml.Table.get? name entries
  | some (.array items) =>
      if items.length < required then .none else some fun name => items[names.idxOf name]?
  | some (.tables items) =>
      if items.length < required then .none
      else some fun name => (items[names.idxOf name]?).map (.table .headed)
  | some .moment => some fun _ => .none
  | some _ => .none

def ofTable? (t : Toml.Table) : Option Settings := do
  let server ← section? "server" ["listen", "workers", "max_sessions"] 2 t
  let client ← section? "client" ["sessions", "message"] 0 t
  let session ← section? "session" ["recv_buffer_size"] 0 t
  let transfer ← section? "transfer" ["receive_dir", "chunk_size", "chunk_delay_ms"] 0 t
  let stress ← section? "stress" ["message_count", "message_size", "interval_ms"] 0 t
  let logging ← section? "logging" ["level"] 0 t
  return {
    listen := ← (server "listen").mapM text?
    workers := ← (server "workers").mapM count?
    maxSessions := ← (server "max_sessions").mapM count?
    sessions := ← (client "sessions").mapM count?
    message := ← (client "message").mapM text?
    readLength := ← (session "recv_buffer_size").mapM count?
    receiveDir := ← (transfer "receive_dir").mapM text?
    chunkSize := ← (transfer "chunk_size").mapM small?
    chunkDelay := ← (transfer "chunk_delay_ms").mapM count?
    messageCount := ← (stress "message_count").mapM small?
    messageSize := ← (stress "message_size").mapM small?
    interval := ← (stress "interval_ms").mapM small?
    logLevel := ← (logging "level").mapM text? }

end Settings

end SessionEngine
