import TableBrowser.Text.Digits

/-!
# The command line

Options are given as `--name value`, `--name=value`, `-n value`, `-nvalue` or
`-n=value`.  An option that waits for its value takes the next word unless that
is longer than a hyphen and begins with one.  Its value is checked when the next
option is met, so an unknown word right behind it is reported first.
-/

namespace TableBrowser.Web

/-- The settings that a command line can change, as they are given there. -/
structure Options where
  database? : Option Text
  demo : Bool
  port : Nat
  host : Text
  sessionMinutes : UInt64
  maxSessions : Nat
  initialSize : Nat
  fixedSize? : Option Nat
  queryTimeout : Nat
  logLevel : Text
  deriving DecidableEq

inductive OptionName
  | database
  | demo
  | port
  | host
  | sessionTimeout
  | maxSessions
  | initialChunkSize
  | chunkSize
  | queryTimeout
  | logLevel
  | help
  | version
  deriving DecidableEq

inductive ArgumentFault
  | unknownArgument
  | invalidValue
  | valueValidation
  | tooManyValues
  | argumentConflict
  | displayHelp
  | displayVersion
  deriving DecidableEq

namespace OptionName

def all : List OptionName :=
  [.database, .demo, .port, .host, .sessionTimeout, .maxSessions, .initialChunkSize,
    .chunkSize, .queryTimeout, .logLevel, .help, .version]

def longName : OptionName → Text
  | .database => "database"
  | .demo => "demo"
  | .port => "port"
  | .host => "host"
  | .sessionTimeout => "session-timeout"
  | .maxSessions => "max-sessions"
  | .initialChunkSize => "initial-chunk-size"
  | .chunkSize => "chunk-size"
  | .queryTimeout => "query-timeout"
  | .logLevel => "log-level"
  | .help => "help"
  | .version => "version"

def ofLong? (name : Text) : Option OptionName :=
  all.find? (·.longName == name)

def ofShort? (c : Char) : Option OptionName :=
  if c = 'd' then some .database
  else if c = 'p' then some .port
  else if c = 'h' then some .help
  else if c = 'V' then some .version
  else none

def takesValue : OptionName → Bool
  | .demo | .help | .version => false
  | _ => true

end OptionName

namespace Options

def standard : Options where
  database? := none
  demo := false
  port := 3000
  host := "127.0.0.1"
  sessionMinutes := 60
  maxSessions := 10
  initialSize := 500
  fixedSize? := none
  queryTimeout := 30
  logLevel := "info"

/-- Reads a number that may have a plus sign. -/
def unsigned? (bound : Nat) : Text → Option Nat
  | '+' :: digits => Text.toNatBelow? bound digits
  | digits => Text.toNatBelow? bound digits

/-- Reads a number that may have either sign and is not negative. -/
def signed? (bound : Nat) : Text → Option Nat
  | '-' :: digits => Text.toNatBelow? 1 digits
  | t => unsigned? bound t

/-- Takes the value of an option. -/
def setValue (options : Options) (name : OptionName) (value : Text) :
    Except ArgumentFault Options :=
  let checked (number? : Option Nat) (set : Nat → Options) : Except ArgumentFault Options :=
    match number? with
    | some n => .ok (set n)
    | none => .error .valueValidation
  match name with
  | .database =>
    if value = [] then .error .invalidValue else .ok { options with database? := some value }
  | .port => checked (signed? UInt16.size value) fun n => { options with port := n }
  | .host => .ok { options with host := value }
  | .sessionTimeout =>
    checked (unsigned? UInt64.size value) fun n =>
      { options with sessionMinutes := UInt64.ofNat n }
  | .maxSessions =>
    checked (unsigned? UInt64.size value) fun n => { options with maxSessions := n }
  | .initialChunkSize =>
    checked (signed? UInt32.size value) fun n => { options with initialSize := n }
  | .chunkSize =>
    checked (signed? UInt32.size value) fun n => { options with fixedSize? := some n }
  | .queryTimeout =>
    checked (unsigned? UInt64.size value) fun n => { options with queryTimeout := n }
  | .logLevel => .ok { options with logLevel := value }
  | .demo => .ok { options with demo := true }
  | .help => .error .displayHelp
  | .version => .error .displayVersion

end Options

/-- What has been read of a command line: the options that are settled, their
names, and an option met last whose value is still to be taken or checked. -/
structure CommandLine where
  options : Options
  settled : List OptionName
  waiting? : Option (OptionName × Option Text)

namespace CommandLine

def start : CommandLine := ⟨.standard, [], none⟩

/-- Settles an option; no option may be given twice. -/
def settle (line : CommandLine) (name : OptionName) (value : Text) :
    Except ArgumentFault CommandLine :=
  if line.settled.contains name then .error .argumentConflict
  else
    (line.options.setValue name value).map fun options =>
      ⟨options, name :: line.settled, none⟩

/-- Settles the waiting option. -/
def flush (line : CommandLine) : Except ArgumentFault CommandLine :=
  match line.waiting? with
  | none => .ok line
  | some (_, none) => .error .invalidValue
  | some (name, some value) => settle { line with waiting? := none } name value

/-- An option, with the value that is attached to it, if there is one. -/
def meet (line : CommandLine) (name : OptionName) (attached? : Option Text) :
    Except ArgumentFault CommandLine :=
  if name.takesValue then do
    let line ← line.flush
    match attached? with
    | some value => line.settle name value
    | none => return { line with waiting? := some (name, none) }
  else
    match attached? with
    | some _ => .error .tooManyValues
    | none => do
      let line ← line.flush
      line.settle name []

/-- The name and the attached value of a long option. -/
def splitLong (t : Text) : Text × Option Text :=
  match Text.splitOnce? '=' t with
  | some (name, value) => (name, some value)
  | none => (t, none)

/-- The value attached to a short option. -/
def shortValue? : Text → Option Text
  | [] => none
  | '=' :: value => some value
  | value => some value

/-- A word behind two hyphens. -/
def meetLong (line : CommandLine) (t : Text) : Except ArgumentFault CommandLine :=
  let (name, attached?) := splitLong t
  match OptionName.ofLong? name with
  | some name => line.meet name attached?
  | none => .error .unknownArgument

/-- A letter behind one hyphen and the text behind it.  The flags among the short
options end the reading, so nothing behind them counts. -/
def meetShort (line : CommandLine) (letter : Char) (t : Text) :
    Except ArgumentFault CommandLine :=
  match OptionName.ofShort? letter with
  | some name => line.meet name (if name.takesValue then shortValue? t else none)
  | none => .error .unknownArgument

/-- Reads the words of a command line from the left. -/
def readFrom : CommandLine → List Text → Except ArgumentFault Options
  | line, [] => line.flush.map (·.options)
  | line, word :: rest =>
    match word with
    | ['-', '-'] =>
      match rest with
      | [] => line.flush.map (·.options)
      | _ :: _ => .error .unknownArgument
    | '-' :: '-' :: t =>
      match line.meetLong t with
      | .ok line => readFrom line rest
      | .error fault => .error fault
    | '-' :: letter :: t =>
      match line.meetShort letter t with
      | .ok line => readFrom line rest
      | .error fault => .error fault
    | value =>
      match line.waiting? with
      | some (name, none) => readFrom { line with waiting? := some (name, some value) } rest
      | _ => .error .unknownArgument

end CommandLine

/-- Reads the words behind the name of the program. -/
def Options.read (words : List Text) : Except ArgumentFault Options :=
  CommandLine.start.readFrom words

end TableBrowser.Web
