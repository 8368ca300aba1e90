import Gridwright.Configuration

/-!
# The command line

Arguments are read from left to right.  The first one that asks for the version
or for help, or that cannot be understood, settles what is done; files and options
may be mixed, and behind `--` everything is a file.  An option may be given once.

`run` is the whole program as a function of its arguments and surroundings.
-/

namespace Gridwright

/-! ### Arguments -/

/-- The options without a value. -/
inductive Flag where
  | noConfigFile
  | noBrackets
  | autoBrackets
  | noReverse
  | managed
  | unmanaged
  | noSideEffects
  | debug
deriving DecidableEq

def Flag.ofLong? : String → Option Flag
  | "no-config-file" => some .noConfigFile
  | "nobrackets" => some .noBrackets
  | "autobrackets" => some .autoBrackets
  | "noreverse" => some .noReverse
  | "managed" => some .managed
  | "unmanaged" => some .unmanaged
  | "nosidefx" => some .noSideEffects
  | "debug" => some .debug
  | _ => none

def Flag.ofShort? : Char → Option Flag
  | 'b' => some .noBrackets
  | 'd' => some .debug
  | _ => none

/-- The arguments of a compilation. -/
structure Arguments where
  files : List String := []
  configFile : Option String := none
  flags : List Flag := []
deriving DecidableEq

/-- What is asked for. -/
inductive Request where
  | compile (arguments : Arguments)
  | version
  | help
  /-- Nothing that can be done, for the given reason. -/
  | invalid (reason : String)
deriving DecidableEq

namespace Arguments

def addFlag (arguments : Arguments) (flag : Flag) : Except Request Arguments :=
  if flag ∈ arguments.flags then .error (.invalid "an option is given twice")
  else .ok { arguments with flags := arguments.flags ++ [flag] }

def addFile (arguments : Arguments) (file : String) : Except Request Arguments :=
  if file.isEmpty then .error (.invalid "a file name is empty")
  else .ok { arguments with files := arguments.files ++ [file] }

def setConfigFile (arguments : Arguments) (path : String) : Except Request Arguments :=
  if path.isEmpty then .error (.invalid "--config-file needs a value")
  else if arguments.configFile.isSome then .error (.invalid "an option is given twice")
  else .ok { arguments with configFile := some path }

/-- Reads letters behind a single dash. -/
def addLetters (arguments : Arguments) : List Char → Except Request Arguments
  | [] => .ok arguments
  | 'V' :: _ => .error .version
  | 'h' :: _ => .error .help
  | letter :: rest =>
    match Flag.ofShort? letter with
    | none => .error (.invalid "unknown option")
    | some flag =>
      match arguments.addFlag flag with
      | .ok next => next.addLetters rest
      | .error request => .error request

/-- Reads a long option other than `--config-file`, which takes no value. -/
def addLong (arguments : Arguments) (name : String) (value : Option String) :
    Except Request Arguments :=
  if value.isSome then .error (.invalid "unknown option, or an option without a value")
  else if name = "version" then .error .version
  else if name = "help" then .error .help
  else
    match Flag.ofLong? name with
    | none => .error (.invalid "unknown option")
    | some flag => arguments.addFlag flag

/-- What is asked for once all arguments are read. -/
def finish (arguments : Arguments) : Request :=
  if arguments.configFile.isSome && arguments.flags.contains .noConfigFile then
    .invalid "--config-file cannot be used with --no-config-file"
  else
    .compile arguments

end Arguments

/-- An argument by its outward form. -/
inductive Word where
  /-- `--` alone. -/
  | divider
  /-- `--name` or `--name=value`. -/
  | long (name : String) (value : Option String)
  /-- A dash and letters. -/
  | short (letters : List Char)
  /-- Anything else; a dash alone is a file name. -/
  | file (name : String)
deriving DecidableEq

/-- The outward form of an argument. -/
def Word.of (argument : String) : Word :=
  match argument.toList with
  | ['-'] => .file argument
  | ['-', '-'] => .divider
  | '-' :: '-' :: name =>
    match name.dropWhile (· != '=') with
    | [] => .long (String.ofList name) none
    | _ :: value =>
      .long (String.ofList (name.takeWhile (· != '='))) (some (String.ofList value))
  | '-' :: letters => .short letters
  | _ => .file argument

/-- Continues with arguments that were read well, and stops with a request
otherwise. -/
def Request.andThen (read : Except Request Arguments) (next : Arguments → Request) :
    Request :=
  match read with
  | .ok arguments => next arguments
  | .error request => request

/-- Reads arguments behind the divider. -/
def readFiles (arguments : Arguments) : List String → Request
  | [] => arguments.finish
  | file :: rest => Request.andThen (arguments.addFile file) fun next => readFiles next rest

/-- Reads arguments in front of the divider. -/
def readArguments (arguments : Arguments) : List String → Request
  | [] => arguments.finish
  | argument :: rest =>
    match Word.of argument with
    | .divider => readFiles arguments rest
    | .short letters =>
      Request.andThen (arguments.addLetters letters) fun next => readArguments next rest
    | .file name =>
      Request.andThen (arguments.addFile name) fun next => readArguments next rest
    | .long "config-file" (some path) =>
      Request.andThen (arguments.setConfigFile path) fun next => readArguments next rest
    | .long "config-file" none =>
      match rest with
      | [] => .invalid "--config-file needs a value"
      | path :: others =>
        match Word.of path with
        | .file name =>
          Request.andThen (arguments.setConfigFile name) fun next => readArguments next others
        | _ => .invalid "--config-file needs a value"
    | .long name value =>
      Request.andThen (arguments.addLong name value) fun next => readArguments next rest

/-- What the arguments ask for. -/
def Request.of (arguments : List String) : Request := readArguments {} arguments

/-! ### Compilation -/

def Arguments.has (arguments : Arguments) (flag : Flag) : Bool := arguments.flags.contains flag

def Arguments.options (arguments : Arguments) : Except Error CompileOptions :=
  CompileOptions.ofFlags
    { naming :=
        { detectBrackets := !arguments.has .noBrackets
          autoBrackets := arguments.has .autoBrackets }
      bidirectionalReverse := !arguments.has .noReverse }
    { managed := arguments.has .managed
      unmanaged := arguments.has .unmanaged
      noSideEffects := arguments.has .noSideEffects }

def Arguments.configuration (arguments : Arguments) : Configuration :=
  if arguments.has .noConfigFile then .disabled
  else
    match arguments.configFile with
    | some path => .file path
    | none => .defaults

/-- The sources besides the configuration: the files, or standard input if there
are none. -/
def Arguments.inputs (arguments : Arguments) (surroundings : Surroundings) :
    Except Error (List Source) :=
  if arguments.files.isEmpty then surroundings.readInput.map ([·])
  else surroundings.readAll arguments.files

/-- Compiles what the arguments name.  The options are checked first; then the
configuration and the files are read in order. -/
def Arguments.compile (arguments : Arguments) (surroundings : Surroundings) :
    Except Error Compilation := do
  let options ← arguments.options
  let configuration ← arguments.configuration.load surroundings
  let inputs ← arguments.inputs surroundings
  Gridwright.compile options (configuration ++ inputs)

/-! ### The program -/

/-- What a run of the program leaves behind. -/
structure Outcome where
  status : Nat
  output : String := ""
  /-- The messages about the run, each to be written on a line of its own. -/
  messages : List String := []
deriving DecidableEq

/-- The name of the program and its version. -/
def versionLine : String := "quickbuild " ++ version ++ "\n"

/-- A short account of the arguments. -/
def usage : String :=
  "Usage: quickbuild [OPTIONS] [FILES]...\n\n" ++
  "Options:\n" ++
  "      --config-file <FILE>  Read this configuration file and no other\n" ++
  "      --no-config-file      Read no configuration file\n" ++
  "  -b, --nobrackets          Derive no aliases from <b>rackets\n" ++
  "      --autobrackets        Put the first letter of each word in brackets\n" ++
  "      --noreverse           Register reverses in one direction\n" ++
  "      --managed             Look for objects before creating them (the default)\n" ++
  "      --unmanaged           Create every object\n" ++
  "      --nosidefx            Create every object, by commands alone\n" ++
  "  -d, --debug               Show debug output\n" ++
  "  -h, --help                Print help\n" ++
  "  -V, --version             Print version\n"

def Request.perform (surroundings : Surroundings) : Request → Outcome
  | .version => { status := 0, output := versionLine }
  | .help => { status := 0, output := usage }
  | .invalid reason => { status := 2, messages := ["error: " ++ reason] }
  | .compile arguments =>
    match arguments.compile surroundings with
    | .ok compilation =>
      { status := 0
        output := scriptText compilation.commands
        messages := compilation.warnings.map fun warning => "WARNING: " ++ warning.describe }
    | .error error => { status := 1, messages := ["ERROR: " ++ error.message] }

def run (surroundings : Surroundings) (arguments : List String) : Outcome :=
  (Request.of arguments).perform surroundings

/-- The paths that a request may have to read. -/
def Request.paths (workingDirectory : String) (home : Option String) : Request → List String
  | .compile arguments =>
    arguments.configuration.paths workingDirectory home ++ arguments.files
  | _ => []

/-- Whether a request reads standard input. -/
def Request.readsInput : Request → Bool
  | .compile arguments => arguments.files.isEmpty
  | _ => false

end Gridwright
