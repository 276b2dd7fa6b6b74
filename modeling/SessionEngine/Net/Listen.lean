import SessionEngine.Net.Address
import SessionEngine.Text.Quoted

/-!
# Listening

Why nobody can listen at an address. The system tells the causes apart by
number.

A machine without a network refuses few addresses of the older kind, because it
cannot tell which are its own, and nearly all of the newer kind
(`ListenFailure.offline?`).
-/

namespace SessionEngine

/-- Why nobody can listen at an address. -/
inductive ListenFailure where
  /-- Somebody else listens there. -/
  | inUse
  /-- The port is reserved. -/
  | denied
  /-- The host is another machine. -/
  | notHere
  /-- A single machine cannot be meant. -/
  | invalid
  /-- The host is known on one link alone, and there is no such link. -/
  | noLink
deriving DecidableEq, Repr

namespace ListenFailure

/-- The number of a failure, its kind and the words for it. -/
def parts : ListenFailure → Nat × String × String
  | inUse => (98, "AddrInUse", "Address already in use")
  | denied => (13, "PermissionDenied", "Permission denied")
  | notHere => (99, "AddrNotAvailable", "Cannot assign requested address")
  | invalid => (22, "InvalidInput", "Invalid argument")
  | noLink => (19, "Uncategorized", "No such device")

def message (e : ListenFailure) : String := s!"{e.parts.2.2} (os error {e.parts.1})"

def details (e : ListenFailure) : String :=
  s!"Os \x7b code: {e.parts.1}, kind: {e.parts.2.1}, message: " ++
    Quoted.encode e.parts.2.2 ++ " \x7d"

/-- Whether a port is kept for those who have a special right. -/
def isReserved (port : UInt16) : Bool := 0 < port && port < 1024

/-- What is in the way of listening on a machine that has no network, for one
who has no special right. -/
def offline? (a : Address) : Option ListenFailure :=
  match a.host with
  | .v4 _ => if isReserved a.port then some denied else none
  | .v6 groups scope =>
      let first := groups.headD 0
      if 0xff00 ≤ first then some invalid
      else if isReserved a.port then some denied
      else if groups.all (· = 0) || groups.take 6 = [0, 0, 0, 0, 0, 0xffff] then none
      else if first &&& 0xffc0 = 0xfe80 then
        some (if scope = 0 then invalid else if scope = 1 then notHere else noLink)
      else some notHere

end ListenFailure

end SessionEngine
