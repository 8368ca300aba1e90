import Gridwright.Builder
import Gridwright.Classifier
import Gridwright.Script.Generate

/-!
# Compilation

A compilation reads its sources one after another, builds one grid from all of
them and writes the script for that grid.  The first error ends it, and then
there is no script.
-/

namespace Gridwright

structure CompileOptions where
  build : BuildOptions := {}
  mode : Mode := .managed
deriving DecidableEq

/-- The options for a mode given by flags, if the flags agree with each other. -/
def CompileOptions.ofFlags (build : BuildOptions) (flags : ModeFlags) :
    Except Error CompileOptions :=
  match flags.resolve with
  | .ok mode => .ok { build, mode }
  | .error cause => .error { cause }

/-- A script and everything worth telling about it. -/
structure Compilation where
  commands : List Command
  warnings : List Warning
deriving DecidableEq

/-- The builder after all directives of the sources. -/
def buildSources (options : BuildOptions) (sources : List Source) : Except Error Builder :=
  Builder.applyAll options {} (directivesOf sources)

/-- The script for a builder's grid, with the warnings of both. -/
def Builder.finish (mode : Mode) (builder : Builder) : Except Error Compilation :=
  match Script.generate mode builder.grid with
  | .ok commands =>
    .ok { commands, warnings := builder.warnings ++ Script.warnings commands }
  | .error cause => .error { cause }

/-- Compiles sources into a script. -/
def compile (options : CompileOptions) (sources : List Source) : Except Error Compilation :=
  match buildSources options.build sources with
  | .ok builder => builder.finish options.mode
  | .error error => .error error

end Gridwright
