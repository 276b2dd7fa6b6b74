import SessionEngine.Config.Help
import SessionEngine.Files.Changes
import SessionEngine.Program
import Std.Async.Signal
import Std.Async.TCP

/-!
# The command line

Runs the program on real connections and real files. All decisions are made by
`Program.service`; this module carries bytes between its sessions and sockets,
waits for pauses, and repeats on the file system what was done to the disk of
a session.

There is one loop. It never sleeps on a connection: whatever has been begun is
looked at from time to time (`await`), so that the sockets are served meanwhile.
-/

namespace SessionEngine

open Std.Async

/-! ## Files -/

/-- The place of an entry on the file system. -/
def realPath (at_ : Location) : String := "/" ++ "/".intercalate at_

/-- A path as written, with the names that lead to it from the root. -/
def absolute (text : String) : IO Path := do
  let written := Path.ofString text
  if text.toList.head? = some '/' then return written
  let here := Path.ofString (toString (← IO.currentDir))
  return { written with names := here.names ++ written.names }

/-- Enters what there is on the way of a path on a disk. -/
def enterWay (disk : Disk) (path : Path) : IO Disk :=
  (List.range (path.names.length + 1)).foldlM (fun disk n => do
    let here : Path := ⟨"", path.names.take n, false⟩
    let real ← (IO.FS.realPath (realPath here.names)).toBaseIO
    match real with
    | .error _ => return disk
    | .ok real =>
        if ← real.isDir then return (disk.makeDirectories here).1
        else if ← real.pathExists then return disk.store here []
        else return disk) disk

/-- Enters a directory of the file system and the names in it on a disk. -/
def enterDirectory (disk : Disk) (dir : Path) : IO Disk := do
  let disk ← enterWay disk dir
  try
    let entries ← (← IO.FS.realPath (realPath dir.names)).readDir
    entries.foldlM (fun disk entry => do
      let path := dir.join entry.fileName
      if ← entry.path.isDir then return (disk.makeDirectories path).1
      else return disk.store path []) disk
  catch _ => return disk

def enterFile (disk : Disk) (file : Path) : IO Disk := do
  let disk ← enterWay disk file
  try
    return disk.store file (← IO.FS.readBinFile (realPath file.names)).toList
  catch _ => return disk

/-- Does to the file system what was done to a disk. -/
def carryOut (change : Change) : IO Unit :=
  match change with
  | .makeDirectory at_ => IO.FS.createDirAll (realPath at_)
  | .move source target => IO.FS.rename (realPath source) (realPath target)
  | .store at_ bytes => IO.FS.writeBinFile (realPath at_) ⟨bytes.toArray⟩

/-! ## Connections -/

/-- Waits until a task has finished. -/
partial def await {α : Type} (task : AsyncTask α) : IO α := do
  if ← IO.hasFinished task then task.block
  else
    IO.sleep 1
    await task

structure Link where
  id : SessionId
  socket : TCP.Socket.Client
  /-- The read that has been begun. -/
  reading : AsyncTask (Option ByteArray)
  /-- The disk of the session as it is on the file system. -/
  saved : Disk
  /-- What is to be sent, and when. -/
  outbox : List (Nat × Bytes)

/-- A chunk that waits for its pause to end. -/
structure Timer where
  id : SessionId
  transfer : Transfer.TransferId
  deadline : Nat

/-- The program at work. -/
structure Running where
  config : Config
  service : Service Player
  links : List Link
  timers : List Timer

namespace Running

/-- The time, in microseconds since the epoch. -/
def now : IO Stress.Instant := do
  return (← Std.Time.Timestamp.now).toNanosecondsSinceUnixEpoch.val / 1000

def beginRead (socket : TCP.Socket.Client) : IO (AsyncTask (Option ByteArray)) :=
  (socket.recv? 65536).asTask

def setClocks (r : Running) : IO Running := do
  let time ← now
  let members := r.service.members.map fun m =>
    { m with session := { m.session with state := Program.atTime time m.session.state } }
  let fresh := Program.atTime time r.service.fresh
  return { r with service := { r.service with members, fresh } }

/-- Looks at the files that the next session will find. -/
def freshDisk (r : Running) : IO Running := do
  let endpoint := r.service.fresh.endpoint
  let receiveDir ← absolute r.config.receiveDir
  let outgoing ← endpoint.outgoing.mapM fun (file, size) => do
    return (← absolute file.text, size)
  let disk ← match outgoing with
    | some (file, _) => enterFile Disk.empty file
    | none => enterDirectory Disk.empty receiveDir
  let endpoint := { endpoint with disk, receiveDir, outgoing }
  return { r with service := { r.service with fresh := { r.service.fresh with endpoint } } }

def link (id : SessionId) (socket : TCP.Socket.Client) (r : Running) : IO Running := do
  let link := ⟨id, socket, ← beginRead socket, r.service.fresh.endpoint.disk, []⟩
  return { r with links := r.links ++ [link] }

def accept (socket : TCP.Socket.Client) (r : Running) : IO Running := do
  let r ← r.freshDisk
  match r.service.accept with
  | (some id, service) => link id socket { r with service }
  | (none, _) =>
      await (← socket.shutdown.asTask)
      return r

def dial (address : Std.Net.SocketAddress) (r : Running) : IO Running := do
  let r ← (← r.freshDisk).setClocks
  let (id, service) := r.service.createSession
  let socket ← TCP.Socket.Client.mk
  try
    await (← (socket.connect address).asTask)
    link id socket { r with service := (service.dial id none).2 }
  catch _ => return { r with service := (service.dial id (some .refused)).2 }

/-- Bytes from a peer, or the end of its bytes, reach the session. -/
def read (l : Link) (r : Running) : IO (Link × Running) := do
  unless ← IO.hasFinished l.reading do return (l, r)
  let bytes ← try l.reading.block catch _ => pure none
  match bytes with
  | none =>
      return (l, { r with
        service := r.service.update l.id (Session.endOfStream r.service.handler) })
  | some bytes =>
      let r ← r.setClocks
      return ({ l with reading := ← beginRead l.socket },
        { r with service := r.service.feed l.id bytes.toList })

/-- Chunks whose pause is over are sent. -/
def sendDue (time : Nat) (r : Running) : Running :=
  let (ended, timers) := r.timers.partition fun t => t.deadline ≤ time
  let service := ended.foldl (fun service t =>
    (service.act t.id (Player.onFiles fun connected e => e.sendChunk t.transfer connected)).1)
    r.service
  { r with service, timers }

def pause (r : Running) : Nat :=
  if r.config.mode = .stress then r.config.stress.interval.toNat else 0

/-- Collects what a session has put out: frames and chunks that are due. -/
def collect (time : Nat) (l : Link) (r : Running) : Link × Running :=
  match r.service.session? l.id with
  | none => (l, r)
  | some s =>
      let timers := s.state.endpoint.due.map fun d => ⟨l.id, d.id, time + d.delay⟩
      let outbox := s.sent.zipIdx.map fun (frame, i) => (time + (i - 1) * r.pause, frame)
      let endpoint := { s.state.endpoint with due := [] }
      let s := { s with sent := [], state := { s.state with endpoint, shown := [] } }
      let service := r.service.modify l.id fun m => { m with session := s }
      ({ l with outbox := l.outbox ++ outbox }, { r with service, timers := r.timers ++ timers })

/-- Writes to a socket what may be written now. -/
def write (time : Nat) (l : Link) : IO Link := do
  let ready := l.outbox.takeWhile fun entry => entry.1 ≤ time
  unless ready.isEmpty do
    try
      await (← (l.socket.sendAll (ready.map fun entry => ⟨entry.2.toArray⟩).toArray).asTask)
    catch _ => pure ()
  return { l with outbox := l.outbox.drop ready.length }

/-- Brings the file system up to date when a transfer has ended. -/
def save (l : Link) (r : Running) : IO (Link × Running) := do
  match r.service.session? l.id with
  | none => return (l, r)
  | some s =>
      let transfers := s.state.endpoint.transfers
      if transfers.reports.isEmpty ∨ r.config.mode = .sendFile then return (l, r)
      let disk := s.state.endpoint.disk
      try
        (Disk.changes l.saved disk).forM carryOut
      catch _ => pure ()
      let transfers := { transfers with reports := [] }
      let service := r.service.modify l.id fun m =>
        { m with session := { s with state := { s.state with
            endpoint := { s.state.endpoint with transfers } } } }
      return ({ l with saved := disk }, { r with service })

/-- Takes one connection a step further. Gives the link if it is still
needed. -/
def step (l : Link) (r : Running) : IO (Option Link × Running) := do
  let time ← IO.monoMsNow
  let (l, r) ← r.read l
  let (l, r) := r.collect time l
  let (l, r) ← r.save l
  let l ← write time l
  let connected := (r.service.session? l.id).any Session.isConnected
  if connected then return (some l, r)
  try await (← l.socket.shutdown.asTask) catch _ => pure ()
  return (none, r)

def stepAll (r : Running) : IO Running := do
  let r := r.sendDue (← IO.monoMsNow)
  let links := r.links
  links.foldlM (fun r l => do
    let (l, r) ← r.step l
    return { r with links := r.links ++ l.toList }) { r with links := [] }

/-- Goes on until the program is interrupted or its work is done. -/
partial def loop (interrupt : AsyncTask Int) (server : Option TCP.Socket.Server)
    (arrival : Option (AsyncTask TCP.Socket.Client)) (r : Running) : IO Running := do
  if ← IO.hasFinished interrupt then return r
  if Program.finished r.config r.service then return r
  let r ← r.stepAll
  match server, arrival with
  | some listener, some task =>
      if ← IO.hasFinished task then
        let r ← try r.accept (← task.block) catch _ => pure r
        loop interrupt server (some (← listener.accept.asTask)) r
      else
        IO.sleep 1
        loop interrupt server arrival r
  | _, _ =>
      IO.sleep 1
      loop interrupt server arrival r

def close (r : Running) : IO Unit := do
  let r := { r with service := r.service.close }
  let _ ← r.stepAll

end Running

/-! ## The program -/

def socketAddress (a : Address) : Std.Net.SocketAddress :=
  match a.host with
  | .v4 bits =>
      let part i : UInt8 := UInt8.ofNat ((Host.octets bits)[i]?.getD 0)
      .v4 ⟨.ofParts (part 0) (part 1) (part 2) (part 3), a.port⟩
  | .v6 groups _ =>
      let part i := groups[i]?.getD 0
      .v6 ⟨.ofParts (part 0) (part 1) (part 2) (part 3) (part 4) (part 5) (part 6) (part 7), a.port⟩

def listenFailure : IO.Error → ListenFailure
  | .permissionDenied .. => .denied
  | .resourceBusy .. => .inUse
  | .invalidArgument .. => .invalid
  | _ => .notHere

/-- Why a file cannot be read, by the number that the system gives. -/
def fileFailure : IO.Error → FileError
  | .noFileOrDirectory .. => .notFound
  | .hardwareFault .. => .device
  | .permissionDenied .. => .denied
  | .inappropriateType _ code _ => if code = 20 then .notDirectory else .isDirectory
  | .invalidArgument _ code _ => if code = 36 then .nameTooLong else .invalidArgument
  | _ => .invalidArgument

/-- Says why the program does not go on. -/
def failWith (details : String) : IO UInt32 := do
  IO.eprintln ("Error: " ++ details)
  return 1

def runConfig (c : Config) : IO UInt32 := do
  let interrupt ← (← Signal.Waiter.mk .sigint false).wait
  let service := Program.service c .still Disk.empty
  let address := socketAddress c.address
  match service.kind with
  | .server =>
      let listener ← TCP.Socket.Server.mk
      let obstacle ← try
          listener.bind address
          listener.listen 1024
          pure none
        catch e => pure (some (listenFailure e))
      match service.start obstacle none with
      | .error e => failWith (e.details c.address.toText)
      | .ok service =>
          let arrival ← listener.accept.asTask
          let r ← Running.loop interrupt (some listener) (some arrival) ⟨c, service, [], []⟩
          r.close
          return 0
  | .client =>
      if Program.limit c = 0 then failWith ((ServiceError.atCapacity 0).details c.address.toText)
      else
        let r ← (List.range (Program.limit c)).foldlM (fun r _ => Running.dial address r)
          ⟨c, service, [], []⟩
        let r ← Running.loop interrupt none none r
        r.close
        return 0

/-- The configuration for a command line, with its file read. -/
def loadConfig (a : Arguments) : IO (Except ConfigError Config) := do
  let contents ← match a.config with
    | none => pure (.error .notFound)
    | some path =>
        try
          pure (.ok (← IO.FS.readBinFile path).toList)
        catch e => pure (.error (fileFailure e))
  return Config.load Host.named? (fun _ => contents) a

end SessionEngine

open SessionEngine in
def main (arguments : List String) : IO UInt32 := do
  match Arguments.ofList arguments with
  | .error stop =>
      if stop.isAnswer then
        IO.print stop.message
        return 0
      else
        IO.eprint stop.message
        return 2
  | .ok a =>
      match ← loadConfig a with
      | .ok c => runConfig c
      | .error e => failWith e.details
