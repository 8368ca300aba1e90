import Gridwright.Compile
import Gridwright.FileTree

/-!
# Sources from files

Sources are read from files and from standard input.  Configuration files are
sources like any other; they are read in front of the rest, so that their
defaults, aliases and reverses hold for all of it.
-/

namespace Gridwright

/-- What a run of the program can see of the world around it. -/
structure Surroundings where
  workingDirectory : String
  home : Option String
  /-- What is found at a path. -/
  status : String → FileStatus
  standardInput : ByteArray

/-! ### Reading -/

/-- The source with the given name and content, which has to be UTF-8. -/
def Source.ofBytes (name : String) (content : ByteArray) : Except Error Source :=
  match String.fromUTF8? content with
  | some text => .ok { name, text }
  | none => .error { cause := .unreadable name "stream did not contain valid UTF-8" }

/-- Reads a source from a file, under the name of its path. -/
def Surroundings.read (surroundings : Surroundings) (path : String) : Except Error Source :=
  match (surroundings.status path).content with
  | .ok content => Source.ofBytes path content
  | .error reason => .error { cause := .unreadable path reason }

/-- Reads sources from files, up to the first that cannot be read. -/
def Surroundings.readAll (surroundings : Surroundings) (paths : List String) :
    Except Error (List Source) :=
  paths.mapM surroundings.read

def Surroundings.readInput (surroundings : Surroundings) : Except Error Source :=
  Source.ofBytes "<stdin>" surroundings.standardInput

/-! ### Configuration files -/

/-- The names under which configuration files are looked for. -/
def configNames : List String := [".qbcfg", "qb.cfg"]

/-- Where configuration files are looked for: in the working directory, then in the
home directory. -/
def configCandidates (workingDirectory : String) (home : Option String) : List String :=
  (workingDirectory :: home.toList).flatMap fun directory =>
    configNames.map (joinPath directory)

inductive Configuration where
  /-- The candidates that are files. -/
  | defaults
  /-- One file, which has to be there. -/
  | file (path : String)
  /-- Nowhere. -/
  | disabled
deriving DecidableEq

/-- The paths that may have to be read for a configuration. -/
def Configuration.paths (configuration : Configuration) (workingDirectory : String)
    (home : Option String) : List String :=
  match configuration with
  | .defaults => configCandidates workingDirectory home
  | .file path => [path]
  | .disabled => []

/-- Reads the sources of a configuration. -/
def Configuration.load (configuration : Configuration) (surroundings : Surroundings) :
    Except Error (List Source) :=
  let paths := configuration.paths surroundings.workingDirectory surroundings.home
  match configuration with
  | .defaults => surroundings.readAll (paths.filter fun path => (surroundings.status path).isFile)
  | .file _ | .disabled => surroundings.readAll paths

end Gridwright
