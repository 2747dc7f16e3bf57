import Chaincode.Start

/-!
# The command line of the echo chaincode

How an argument list is read, what the program does then, and what it prints.
-/

/-!
## Command-line options

The options of the echo chaincode and how an argument list is read. Options that take a value take
it after an equals sign or from the next argument, and none may be given twice.
-/

namespace Chaincode.CommandLine

/-- The options that take a value. -/
inductive OptionName where
  | peerAddress
  | address
  | config
  deriving DecidableEq, Repr

def OptionName.text : OptionName → String
  | peerAddress => "peer.address"
  | address => "address"
  | config => "config"

def OptionName.ofText? (text : String) : Option OptionName :=
  [OptionName.peerAddress, .address, .config].find? (·.text = text)

/-- The values given on the command line. -/
structure Options where
  peerAddress : Option String := none
  address : Option String := none
  config : Option String := none
  deriving DecidableEq, Repr

/-- What is wrong with an argument list. -/
inductive UsageFault where
  | unexpected (argument : String)
  | missingValue (name : OptionName)
  | repeated (name : OptionName)
  deriving DecidableEq, Repr

def UsageFault.message : UsageFault → String
  | unexpected argument => "unexpected argument '" ++ argument ++ "' found"
  | missingValue name => "a value is required for '--" ++ name.text ++ "' but none was supplied"
  | repeated name => "the argument '--" ++ name.text ++ "' cannot be used multiple times"

/-- What an argument list asks for. -/
inductive Request where
  | help
  | version
  | start (options : Options)
  deriving DecidableEq, Repr

/-- The form of one argument. -/
inductive Argument where
  /-- Two dashes: no options follow. -/
  | divider
  | long (name : String) (value : Option String)
  | short (flag : Char)
  | plain
  deriving DecidableEq, Repr

def Argument.ofText (text : String) : Argument :=
  match text.toList with
  | ['-', '-'] => .divider
  | '-' :: '-' :: rest =>
    let name := String.ofList (rest.takeWhile (· ≠ '='))
    match rest.dropWhile (· ≠ '=') with
    | _ :: value => .long name (some (String.ofList value))
    | [] => .long name none
  | '-' :: flag :: _ => .short flag
  | _ => .plain

namespace Options

def get (o : Options) : OptionName → Option String
  | .peerAddress => o.peerAddress
  | .address => o.address
  | .config => o.config

/-- `o` with one more value. An empty path is no value. -/
def assign (o : Options) (name : OptionName) (value : String) : Except UsageFault Options :=
  if (o.get name).isSome then .error (.repeated name)
  else
    match name with
    | .peerAddress => .ok { o with peerAddress := some value }
    | .address => .ok { o with address := some value }
    | .config =>
      if value = "" then .error (.missingValue .config) else .ok { o with config := some value }

/-- Reads arguments from left to right; `waiting` is an option that needs its value. Help and
version are answered as soon as they are asked for. -/
def readFrom (o : Options) (waiting : Option OptionName) : List String → Except UsageFault Request
  | [] =>
    match waiting with
    | some name => .error (.missingValue name)
    | none => .ok (.start o)
  | text :: rest =>
    match waiting, Argument.ofText text with
    | some name, .plain =>
      match o.assign name text with
      | .ok o => o.readFrom none rest
      | .error fault => .error fault
    | some name, _ => .error (.missingValue name)
    | none, .plain => .error (.unexpected text)
    | none, .divider =>
      match rest with
      | [] => .ok (.start o)
      | positional :: _ => .error (.unexpected positional)
    | none, .short flag =>
      if flag = 'h' then .ok .help
      else if flag = 'V' then .ok .version
      else .error (.unexpected text)
    | none, .long name value =>
      match OptionName.ofText? name, value with
      | some name, none => o.readFrom (some name) rest
      | some name, some value =>
        match o.assign name value with
        | .ok o => o.readFrom none rest
        | .error fault => .error fault
      | none, none =>
        if name = "help" then .ok .help
        else if name = "version" then .ok .version
        else .error (.unexpected text)
      | none, some _ => .error (.unexpected text)

def read (args : List String) : Except UsageFault Request := ({} : Options).readFrom none args

end Options

/-!
## The echo chaincode as a program

What the program does with its arguments, its environment and its files, and what it prints when it
is done.
-/

def programName : String := "ccshim-echo"

def versionText : String := programName ++ " 0.1.0\n"

def helpText : String :=
  "Echo chaincode over the ccshim session layer\n\n" ++
  "Usage: " ++ programName ++ " [OPTIONS]\n\n" ++
  "Options:\n" ++
  "      --peer.address <PEER_ADDRESS>  " ++
    "Peer to dial. Without it the chaincode listens for the peer\n" ++
  "      --address <ADDRESS>            Local listen address (listen mode only)\n" ++
  "      --config <CONFIG>              Config file, instead of the default location\n" ++
  "  -h, --help                         Print help\n" ++
  "  -V, --version                      Print version\n"

/-- The settings of a run: the options above the environment above the file. A file that was asked
for must be there. -/
def Options.settings (o : Options) (files : Files) (env : Environment) :
    Except ConfigFault Settings :=
  let below := match o.config with
    | some path => (Settings.ofFile files path).map (Settings.override env)
    | none => Settings.load files env
  below.map fun s =>
    { s with
      peer.address := o.peerAddress.getD s.peer.address
      listenAddress := o.address.getD s.listenAddress }

/-- How far a run came. -/
inductive Outcome (S : Type) where
  | misused (fault : UsageFault)
  /-- Something was asked for and printed. -/
  | printed (text : String)
  | unconfigured (fault : ConfigFault)
  /-- The chaincode could not start, or its session has ended. -/
  | ended (why : SessionEnd)
  | running (chaincode : Running Unit S)

/-- Runs the program up to the point where the chaincode has started. -/
def run {S : Type} [MessageStream S] (network : Network S) (files : Files) (env : Environment)
    (args : List String) : Outcome S :=
  match Options.read args with
  | .error fault => .misused fault
  | .ok .help => .printed helpText
  | .ok .version => .printed versionText
  | .ok (.start options) =>
    match options.settings files env with
    | .error fault => .unconfigured fault
    | .ok settings =>
      match (start network files settings none echo).result with
      | .error why => .ended why
      | .ok chaincode => .running chaincode

/-! ### What is read -/

/-- The options of a run, if there is one. -/
def options? (args : List String) : Option Options :=
  match Options.read args with
  | .ok (.start options) => some options
  | _ => none

/-- The file that the settings of a run come from, if it is there. -/
def configPath? (env : Environment) (args : List String) : Option String :=
  (options? args).map fun o => o.config.getD (Settings.location env)

/-- The files that the settings of a run name. -/
def credentialPaths (files : Files) (env : Environment) (args : List String) : List String :=
  match options? args with
  | none => []
  | some o =>
    match o.settings files env with
    | .ok s => [s.peer.tls.keyPath, s.peer.tls.certPath, s.peer.tls.rootPath].filterMap id
    | .error _ => []

/-! ### What is printed -/

/-- One cause under an error. Several causes are numbered; their further lines are set in. -/
def causeText (number : Option Nat) (text : String) : String :=
  match number with
  | none => "    " ++ String.ofList (text.toList.flatMap (indent 4))
  | some n =>
    let digits := toString n
    String.ofList (List.replicate (5 - digits.length) ' ') ++ digits ++ ": " ++
      String.ofList (text.toList.flatMap (indent 7))
where
  indent (width : Nat) (c : Char) : List Char :=
    if c = '\n' then c :: List.replicate width ' ' else [c]

/-- The causes under an error, a line each. -/
def causeTexts (causes : List String) : List String :=
  match causes with
  | [cause] => [causeText none cause]
  | causes => causes.mapIdx fun n cause => causeText (some n) cause

/-- An error and the causes under it, as the program prints them. -/
def errorText (message : String) (causes : List String) : String :=
  let under := match causes with
    | [] => ""
    | _ => "\n\nCaused by:\n" ++ "\n".intercalate (causeTexts causes)
  "Error: " ++ message ++ under ++ "\n"

namespace Outcome

variable {S : Type}

/-- The exit code of a run that is over. A peer that hangs up ends the chaincode in good order. -/
def exitCode? : Outcome S → Option Nat
  | misused _ => some 2
  | printed _ => some 0
  | unconfigured _ => some 1
  | ended .streamEnded => some 0
  | ended _ => some 1
  | running _ => none

def output : Outcome S → String
  | printed text => text
  | misused _ | unconfigured _ | ended _ | running _ => ""

def errors : Outcome S → String
  | misused fault => "error: " ++ fault.message ++ "\n"
  | unconfigured fault => errorText fault.message []
  | ended .streamEnded => ""
  | ended why => errorText "chaincode exited" (why.message :: why.sources)
  | printed _ | running _ => ""

end Outcome

end Chaincode.CommandLine
