import SessionEngine.Text.Reader

/-!
# Arguments

The command line is a list of options. An option is written with its long name
(`--listen ADDRESS`, `--listen=ADDRESS`) or with one letter (`-l ADDRESS`,
`-lADDRESS`, `-l=ADDRESS`); letters of options without a value may be joined.
Each option is given once at most, and there is nothing but options.

Options are taken in order and the first obstacle counts, but a value is looked
at only when the next option begins or the line ends. That is why an option
waits as `pending` until then.
-/

namespace SessionEngine

inductive Mode where
  | server
  | client
  | sendFile
  | stress
deriving DecidableEq, Repr

def Mode.ofName? : String → Option Mode
  | "server" => some .server
  | "client" => some .client
  | "send-file" => some .sendFile
  | "stress" => some .stress
  | _ => none

structure Arguments where
  config : Option String
  listen : Option String
  mode : Option Mode
  workers : Option Nat
  maxSessions : Option Nat
  sessions : Option Nat
  file : Option String
  message : Option String
  logLevel : Option String
deriving DecidableEq, Repr

namespace Arguments

def none : Arguments := ⟨.none, .none, .none, .none, .none, .none, .none, .none, .none⟩

/-! ## Options -/

inductive Flag where
  | config
  | listen
  | mode
  | workers
  | maxSessions
  | sessions
  | file
  | message
  | logLevel
  | help
  | version
deriving DecidableEq, Repr

namespace Flag

def ofName? : String → Option Flag
  | "config" => some config
  | "listen" => some listen
  | "mode" => some mode
  | "workers" => some workers
  | "max-sessions" => some maxSessions
  | "sessions" => some sessions
  | "file" => some file
  | "message" => some message
  | "log-level" => some logLevel
  | "help" => some help
  | "version" => some version
  | _ => .none

def ofLetter? : Char → Option Flag
  | 'c' => some config
  | 'l' => some listen
  | 'w' => some workers
  | 'm' => some maxSessions
  | 's' => some sessions
  | 'f' => some file
  | 'h' => some help
  | 'V' => some version
  | _ => .none

def takesValue (flag : Flag) : Bool := flag ≠ help && flag ≠ version

end Flag

/-! ## Obstacles -/

/-- Why the command line is not followed. -/
inductive Stop where
  /-- The line asks for help, with all details or without. -/
  | help (detailed : Bool)
  | version
  | unexpected (argument : String)
  | missingValue (flag : Flag)
  | unexpectedValue (flag : Flag)
  | repeated (flag : Flag)
  | noMode (value : String)
  | emptyPath (flag : Flag)
  | noCount (flag : Flag) (value : String)
deriving DecidableEq, Repr

/-- The options that were taken, and the one that waits, perhaps for its
value. -/
structure Progress where
  given : Arguments
  taken : List Flag
  pending : Option (Flag × Option String)

def Progress.start : Progress := ⟨.none, [], .none⟩

/-! ## Values -/

def path (flag : Flag) (value : String) : Except Stop (Option String) :=
  if value = "" then .error (.emptyPath flag) else .ok (some value)

/-- A value that is a count. A plus may stand in front. -/
def count (flag : Flag) (value : String) : Except Stop (Option Nat) :=
  let digits := if value.toList.head? = some '+' then String.ofList value.toList.tail else value
  match Reader.whole? (Reader.natural 10) digits with
  | some n => if n < UInt64.size then .ok (some n) else .error (.noCount flag value)
  | .none => .error (.noCount flag value)

def set (flag : Flag) (value : String) (a : Arguments) : Except Stop Arguments := do
  match flag with
  | .config => return { a with config := ← path flag value }
  | .listen => return { a with listen := some value }
  | .mode =>
      match Mode.ofName? value with
      | some mode => return { a with mode := some mode }
      | .none => throw (.noMode value)
  | .workers => return { a with workers := ← count flag value }
  | .maxSessions => return { a with maxSessions := ← count flag value }
  | .sessions => return { a with sessions := ← count flag value }
  | .file => return { a with file := ← path flag value }
  | .message => return { a with message := some value }
  | .logLevel => return { a with logLevel := some value }
  | .help | .version => return a

/-! ## Reading -/

namespace Progress

def take (flag : Flag) (value : String) (p : Progress) : Except Stop Progress := do
  if p.taken.contains flag then throw (.repeated flag)
  return { p with given := ← p.given.set flag value, taken := flag :: p.taken }

/-- Takes the option that waits. -/
def resolve (p : Progress) : Except Stop Progress :=
  match p.pending with
  | .none => .ok p
  | some (flag, .none) => .error (.missingValue flag)
  | some (flag, some value) => { p with pending := .none }.take flag value

/-- Begins an option, with a value that is attached to it or without. -/
def begin (flag : Flag) (attached : Option String) (p : Progress) : Except Stop Progress := do
  let p ← p.resolve
  match attached with
  | some value => p.take flag value
  | .none => return { p with pending := some (flag, .none) }

def ask (flag : Flag) (detailed : Bool) (p : Progress) : Except Stop Progress := do
  let _ ← p.resolve
  throw (if flag = .version then .version else .help detailed)

def long (argument : String) (text : List Char) (p : Progress) : Except Stop Progress :=
  let name := text.takeWhile (· ≠ '=')
  let attached := if name.length = text.length then Option.none
    else some (String.ofList (text.drop (name.length + 1)))
  match Flag.ofName? (String.ofList name) with
  | .none => .error (.unexpected argument)
  | some flag =>
      if flag.takesValue then p.begin flag attached
      else if attached.isSome then .error (.unexpectedValue flag)
      else p.ask flag true

/-- Reads options with letters. The first that has a value takes the rest for
it. -/
def letters (argument : String) : List Char → Progress → Except Stop Progress
  | [], p => .ok p
  | c :: rest, p =>
      match Flag.ofLetter? c with
      | .none => .error (.unexpected argument)
      | some flag =>
          if flag.takesValue then
            match rest with
            | [] => p.begin flag .none
            | '=' :: value => p.begin flag (some (String.ofList value))
            | value => p.begin flag (some (String.ofList value))
          else do letters argument rest (← p.ask flag false)

/-- Reads what is no option: the value of the option that waits for one. -/
def plain (argument : String) (p : Progress) : Except Stop Progress :=
  match p.pending with
  | some (flag, .none) => .ok { p with pending := some (flag, some argument) }
  | _ => .error (.unexpected argument)

/-- Reads the command line. Behind `--` there are no options, and so nothing
may follow. -/
def read : List String → Progress → Except Stop Progress
  | [], p => p.resolve
  | argument :: rest, p =>
      match argument.toList with
      | ['-', '-'] =>
          match rest with
          | [] => p.resolve
          | next :: _ => .error (.unexpected next)
      | '-' :: '-' :: text => do read rest (← p.long argument text)
      | '-' :: c :: text => do read rest (← p.letters argument (c :: text))
      | _ => do read rest (← p.plain argument)

end Progress

def ofList (arguments : List String) : Except Stop Arguments :=
  (Progress.start.read arguments).map Progress.given

end Arguments

end SessionEngine
