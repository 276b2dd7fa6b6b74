import SessionEngine.Config.Arguments
import SessionEngine.Config.Settings
import SessionEngine.Net.Address
import SessionEngine.Session.Basic
import SessionEngine.Stress.Message
import SessionEngine.Text.Quoted
import SessionEngine.Transfer.Endpoint

/-!
# Configuration

The program follows its command line, then its configuration file, then its
defaults. `Config.merge` puts the three together; only the level of the log is
special, for the level `info` on the command line counts as none.

The address has to be one, and a file has to be named where one is to be sent
(`ConfigError`).
-/

namespace SessionEngine

structure Config where
  mode : Mode
  address : Address
  workers : Option Nat
  maxSessions : Nat
  sessions : Nat
  readLength : Nat
  receiveDir : String
  chunkSize : Nat
  chunkDelay : Nat
  file : Option String
  message : String
  stress : Stress.Start
  logLevel : String
deriving DecidableEq

/-- Why there is no configuration. -/
inductive ConfigError where
  /-- The configuration file cannot be read. -/
  | fileRead (path : String) (cause : FileError)
  /-- The configuration file is no document, or has settings of a wrong kind. -/
  | malformed (path : String)
  | invalidAddress (text : String)
  | missingFile
deriving DecidableEq, Repr

namespace ConfigError

def message : ConfigError → String
  | fileRead path cause => s!"Failed to read config file '{path}': {cause.message}"
  | malformed path => s!"Failed to parse config file '{path}'"
  | invalidAddress text => s!"Invalid address '{text}'"
  | missingFile => "send-file mode requires --file"

def details : ConfigError → String
  | fileRead path cause =>
      "FileRead(" ++ Quoted.encode path ++ ", " ++ cause.details ++ ")"
  | malformed path => "TomlParse(" ++ Quoted.encode path ++ ")"
  | invalidAddress text => "InvalidAddress(" ++ Quoted.encode text ++ ")"
  | missingFile => "MissingFile"

end ConfigError

namespace Config

/-! ## Defaults -/

def defaultListen : String := "127.0.0.1:7777"

def defaultMaxSessions : Nat := 1000

def defaultSessions : Nat := 1

def defaultMessage : String := "Hello from client!"

def defaultMessageCount : Nat := 1000

def defaultMessageSize : Nat := 1024

def defaultInterval : Nat := 0

def defaultLogLevel : String := "info"

/-! ## Merging -/

def levelOf (a : Arguments) (s : Settings) : String :=
  match a.logLevel with
  | some level => if level = defaultLogLevel then s.logLevel.getD defaultLogLevel else level
  | none => s.logLevel.getD defaultLogLevel

/-- Puts the command line before the configuration file, and this before the
defaults. -/
def merge (service : NameService) (a : Arguments) (s : Settings) : Except ConfigError Config :=
  let listen := (a.listen <|> s.listen).getD defaultListen
  let mode := a.mode.getD .server
  match Address.ofString? service listen with
  | none => .error (.invalidAddress listen)
  | some address =>
      if mode = .sendFile ∧ a.file = none then .error .missingFile
      else
        .ok {
          mode
          address
          workers := a.workers <|> s.workers
          maxSessions := (a.maxSessions <|> s.maxSessions).getD defaultMaxSessions
          sessions := (a.sessions <|> s.sessions).getD defaultSessions
          readLength := s.readLength.getD Session.defaultReadLength
          receiveDir := s.receiveDir.getD Transfer.Endpoint.defaultReceiveDir
          chunkSize := s.chunkSize.getD Transfer.Transfers.defaultChunkSize
          chunkDelay := s.chunkDelay.getD Transfer.Transfers.defaultChunkDelay
          file := a.file
          message := (a.message <|> s.message).getD defaultMessage
          stress :=
            { messageCount := UInt32.ofNat (s.messageCount.getD defaultMessageCount)
              messageSize := UInt32.ofNat (s.messageSize.getD defaultMessageSize)
              interval := UInt32.ofNat (s.interval.getD defaultInterval) }
          logLevel := levelOf a s }

/-! ## Loading -/

def settings? (text : String) : Option Settings :=
  (Toml.read? text).bind Settings.ofTable?

/-- The settings in a configuration file with these contents, or with none
because it could not be read. -/
def settingsOf (path : String) (contents : Except FileError Bytes) :
    Except ConfigError Settings :=
  match contents with
  | .error e => .error (.fileRead path e)
  | .ok bytes =>
      match Utf8.decode? bytes with
      | none => .error (.fileRead path .invalidText)
      | some text =>
          match settings? text with
          | none => .error (.malformed path)
          | some settings => .ok settings

/-- The configuration for a command line. The configuration file, if one is
named, is read with `read`. -/
def load (service : NameService) (read : String → Except FileError Bytes) (a : Arguments) :
    Except ConfigError Config :=
  match a.config with
  | none => merge service a Settings.none
  | some path =>
      match settingsOf path (read path) with
      | .error e => .error e
      | .ok settings => merge service a settings

end Config

end SessionEngine
