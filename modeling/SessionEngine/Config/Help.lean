import SessionEngine.Config.Arguments

/-!
# Words about the command line

What the program answers to somebody who asks for help or for its version,
and what it says about a command line that it does not follow.
-/

namespace SessionEngine

namespace Arguments

def program : String := "tcp-core"

def about : String := "Asynchronous TCP session engine with chunked file transfer"

structure Entry where
  /-- The letter and the long name. -/
  spelling : String
  purpose : String
  /-- What is added to the purpose in brackets. -/
  remarks : List String
  /-- The values that can be chosen, and what they mean. -/
  choices : List (String × String)

def modes : List (String × String) :=
  [("server", "Chat echo, stress receiver and file receiver on one listener"),
    ("client", "Chat client sending one greeting per session"),
    ("send-file", "Send one file and exit when it completes"),
    ("stress", "Load-test client")]

/-- All options, in the order in which help shows them. -/
def entries (detailed : Bool) : List Entry :=
  [⟨"-c, --config <CONFIG>", "Path to TOML configuration file", [], []⟩,
    ⟨"-l, --listen <LISTEN>", "Address to listen on (server) or connect to (clients)", [], []⟩,
    ⟨"    --mode <MODE>", "Operating mode",
      "default: server" ::
        if detailed then []
        else ["possible values: " ++ ", ".intercalate (modes.map Prod.fst)],
      if detailed then modes else []⟩,
    ⟨"-w, --workers <WORKERS>",
      "Number of worker threads (defaults to number of CPU cores)", [], []⟩,
    ⟨"-m, --max-sessions <MAX_SESSIONS>",
      "Maximum concurrent sessions accepted by the server", [], []⟩,
    ⟨"-s, --sessions <SESSIONS>", "Sessions opened by client modes", [], []⟩,
    ⟨"-f, --file <FILE>", "File to send in send-file mode", [], []⟩,
    ⟨"    --message <MESSAGE>", "Greeting sent by the chat client", [], []⟩,
    ⟨"    --log-level <LOG_LEVEL>", "Log level (trace, debug, info, warn, error)",
      ["default: info"], []⟩,
    ⟨"-h, --help",
      if detailed then "Print help (see a summary with '-h')"
      else "Print help (see more with '--help')", [], []⟩,
    ⟨"-V, --version", "Print version", [], []⟩]

def blanks (n : Nat) : String := String.ofList (List.replicate n ' ')

def Entry.remark (e : Entry) : String :=
  " ".intercalate (e.remarks.map fun r => "[" ++ r ++ "]")

/-- The line about an option. The purposes of all options begin at one column. -/
def Entry.line (column : Nat) (e : Entry) : String :=
  "  " ++ e.spelling ++ blanks (column - e.spelling.length) ++ e.purpose ++
    (if e.remarks.isEmpty then "" else " " ++ e.remark) ++ "\n"

/-- What stands in front of each line below the spelling of an option. -/
def indent : String := blanks 10

def Entry.lines (e : Entry) : String :=
  let widest := (e.choices.map fun c => c.1.length).foldl max 0
  let choices := e.choices.map fun (name, meaning) =>
    "\n" ++ indent ++ "- " ++ name ++ ": " ++ blanks (widest - name.length) ++ meaning
  "  " ++ e.spelling ++ "\n" ++ indent ++ e.purpose ++
    (if choices.isEmpty then ""
      else "\n\n" ++ indent ++ "Possible values:" ++ String.join choices) ++
    (if e.remarks.isEmpty then "" else "\n" ++ indent ++ "\n" ++ indent ++ e.remark) ++ "\n"

/-- What is said about all options, in one line each or in detail. -/
def options (detailed : Bool) : String :=
  let all := entries detailed
  if detailed then "\n".intercalate (all.map Entry.lines)
  else String.join (all.map (Entry.line ((all.map fun e => e.spelling.length).foldl max 0 + 2)))

def help (detailed : Bool) : String :=
  about ++ "\n\nUsage: " ++ program ++ " [OPTIONS]\n\nOptions:\n" ++ options detailed

def version : String := program ++ " 0.1.0\n"

def Flag.name : Flag → String
  | config => "--config"
  | listen => "--listen"
  | mode => "--mode"
  | workers => "--workers"
  | maxSessions => "--max-sessions"
  | sessions => "--sessions"
  | file => "--file"
  | message => "--message"
  | logLevel => "--log-level"
  | help => "--help"
  | version => "--version"

/-- What is said about a command line that is not followed. -/
def Stop.message : Stop → String
  | help detailed => Arguments.help detailed
  | version => Arguments.version
  | unexpected argument => s!"error: unexpected argument '{argument}' found\n"
  | missingValue flag | emptyPath flag =>
      s!"error: a value is required for '{flag.name}' but none was supplied\n"
  | unexpectedValue flag => s!"error: unexpected value for '{flag.name}' found\n"
  | repeated flag => s!"error: the argument '{flag.name}' cannot be used multiple times\n"
  | noMode value => s!"error: invalid value '{value}' for '--mode'\n"
  | noCount flag value => s!"error: invalid value '{value}' for '{flag.name}'\n"

/-- Whether a command line that is not followed got what it asked for. -/
def Stop.isAnswer : Stop → Bool
  | help _ | version => true
  | _ => false

end Arguments

end SessionEngine
