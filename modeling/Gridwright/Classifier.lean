import Gridwright.Line.Form
import Gridwright.Softcode

/-!
# From lines to directives

A source is classified line by line.  Outside of blocks every line has to be a
directive, and the first line that is none ends the source.  Inside an `IN` or
`ON` block every line is code for the block's room or exit; a line that looks
like a directive is kept as code too, with a warning.

A line is read as the first form of the table that the current place knows what
to do with.
-/

namespace Gridwright

open Gridwright.Text

/-! ### Places -/

/-- A block of code. -/
inductive Block where
  /-- Code for a room. -/
  | inRoom (room : Label)
  /-- Code for an exit of a room. -/
  | onExit (room exit : Label)
deriving DecidableEq

def Block.keyword : Block → String
  | .inRoom _ => "IN"
  | .onExit _ _ => "ON"

/-- Adds code to what the block is about. -/
def Block.buffer : Block → String → Action
  | .inRoom room, text => .bufferRoom room text
  | .onExit room exit, text => .bufferExit room exit text

/-- Where in a source the next line stands. -/
inductive Place where
  /-- Outside of blocks. -/
  | outside
  /-- Inside a block. -/
  | inside (block : Block)
  /-- Behind a line that ended the source. -/
  | failed
deriving DecidableEq

/-- What the classifier remembers from line to line. -/
structure Classifier where
  place : Place := .outside
  /-- The number of the last literal line of the block. -/
  lastLiteral : Option Nat := none
deriving DecidableEq

/-- The classifier at a new place, where no literal line has been seen. -/
def Classifier.enter (place : Place) : Classifier := { place }

/-! ### Lines -/

/-- A numbered line in its two forms: without the blank characters at its end,
and without those at either end. -/
structure SourceLine where
  number : Nat
  raw : List Char
  trimmed : List Char

def SourceLine.of (number : Nat) (text : String) : SourceLine :=
  let raw := trimEnd text.toList
  { number, raw, trimmed := trimStart raw }

/-- A line of code as it is added to a room or exit.  A line that starts in the
first column starts a new command; an indented one continues the command before
it.  Tabs count as spaces. -/
def codeChars (line : List Char) : List Char :=
  let body := (trimStart line).map fun c => if c = '\t' then ' ' else c
  match line with
  | [] => '\n' :: body
  | c :: _ => if isBlank c then body else '\n' :: body

/-- A line of code as it is added to a room or exit. -/
def codeText (line : String) : String := String.ofList (codeChars line.toList)

def SourceLine.code (line : SourceLine) : String := String.ofList (codeChars line.raw)

def SourceLine.text (line : SourceLine) : String := String.ofList line.trimmed

/-! ### Links -/

/-- What a path asks for: every room, and behind each room the exits that lead to
it from the room before and back. -/
def pathActions (exit : Label) : Label → List Hop → List Action
  | _, [] => []
  | previous, hop :: rest =>
    .createRoom hop.room :: .createExit exit previous hop.room ::
      ((if hop.twoWay then [.createReverseExit exit previous hop.room] else []) ++
        pathActions exit hop.room rest)

def linkActions (exit first : Label) (hops : String) : List Action :=
  .createRoom first :: pathActions exit first (Line.hops hops.toList)

/-! ### Responses -/

/-- What becomes of the classifier and what is to be done, or nothing if a form
has no meaning at a place. -/
abbrev Response := Option (Classifier × List Action)

/-- The response to a line outside of blocks. -/
def Classifier.outside (classifier : Classifier) (line : SourceLine) : Line.Reading → Response
  | .blank | .comment => some (classifier, [.nop])
  | .ignored | .literal _ => none
  | .attrBase path => some (classifier, [.attrBase path])
  | .exitAlias exit names => some (classifier, [.exitAlias exit names])
  | .reverse exit back => some (classifier, [.reverse exit back])
  | .reference kind slot value => some (classifier, [.setReference kind slot value])
  | .flags kind value => some (classifier, [.setFlags kind value])
  | .link exit first hops => some (classifier, linkActions exit first hops)
  | .inRoom room => some (.enter (.inside (.inRoom room)), [.nop])
  | .onExit exit room => some (.enter (.inside (.onExit room exit)), [.nop])
  | .describe room text =>
    some (classifier, [.bufferRoom room ("\n@describe here=" ++ text)])
  | .endIn => some (.enter .failed, [.error "ENDIN outside of IN-block."])
  | .endOn => some (.enter .failed, [.error "ENDON outside of ON-block."])
  | .anything => some (.enter .failed, [.error ("Unrecognized command: " ++ line.text)])

/-- The code of a literal line.  Literal lines that follow each other directly
are divided by a line break. -/
def Classifier.literalCode (classifier : Classifier) (number : Nat) (text : String) : String :=
  (if classifier.lastLiteral = some (number - 1) then String.ofList Softcode.lineBreak else "") ++
    Softcode.escape text

/-- The warning about a directive inside a block. -/
def Block.directiveWarning (block : Block) (line : SourceLine) : String :=
  "Directive matched inside " ++ block.keyword ++ " state: '" ++ line.text ++ "'"

/-- The response to a line inside a block. -/
def Classifier.inside (classifier : Classifier) (block : Block) (line : SourceLine) :
    Line.Reading → Response
  | .blank | .ignored => some (classifier, [.nop])
  | .literal text =>
    some ({ classifier with lastLiteral := some line.number },
      [block.buffer (classifier.literalCode line.number text)])
  | .comment | .anything => some (classifier, [block.buffer line.code])
  | .endIn =>
    match block with
    | .inRoom _ => some (.enter .outside, [.nop])
    | .onExit _ _ => some (.enter .outside, [.warning "ENDIN inside of ON-block."])
  | .endOn =>
    match block with
    | .inRoom _ => some (.enter .outside, [.warning "ENDON inside of IN-block."])
    | .onExit _ _ => some (.enter .outside, [.nop])
  | .attrBase _ | .exitAlias _ _ | .reverse _ _ | .reference _ _ _ | .flags _ _ | .link _ _ _
  | .inRoom _ | .onExit _ _ | .describe _ _ =>
    some (classifier, [.warning (block.directiveWarning line), block.buffer line.code])

/-- Inside a block every directive is kept as code, with a warning. -/
theorem Classifier.inside_of_isDirective (classifier : Classifier) (block : Block)
    (line : SourceLine) (reading : Line.Reading) (h : reading.isDirective = true) :
    classifier.inside block line reading =
      some (classifier, [.warning (block.directiveWarning line), block.buffer line.code]) := by
  cases reading with
  | attrBase | exitAlias | reverse | reference | flags | link | inRoom | onExit | describe => rfl
  | blank | ignored | literal | comment | endIn | endOn | anything =>
    exact absurd h (by simp [Line.Reading.isDirective])

/-- The response to a line that is read in a certain way.  Behind the end of a
source there is none. -/
def Classifier.respond (classifier : Classifier) (line : SourceLine) (reading : Line.Reading) :
    Response :=
  match classifier.place with
  | .outside => classifier.outside line reading
  | .inside block => classifier.inside block line reading
  | .failed => none

/-- The first response that a line gets when the forms of a table are tried in
order. -/
def Classifier.response (table : List Line.Form) (classifier : Classifier)
    (line : SourceLine) : Response :=
  table.findSome? fun form => (form.read? line.trimmed).bind (classifier.respond line)

/-! ### Classification -/

/-- Classifies one line.  A line that gets no response changes nothing. -/
def Classifier.classify (classifier : Classifier) (number : Nat) (text : String) :
    Classifier × List Action :=
  (classifier.response Line.Form.table (.of number text)).getD (classifier, [])

/-- The directives of some lines, the first of which has the given number. -/
def Classifier.directives (file : String) (classifier : Classifier) (number : Nat) :
    List String → List Directive
  | [] => []
  | text :: rest =>
    let (next, actions) := classifier.classify number text
    actions.map (⟨⟨file, number⟩, ·⟩) ++ directives file next (number + 1) rest

structure Source where
  name : String
  text : String
deriving DecidableEq

def Source.directives (source : Source) : List Directive :=
  Classifier.directives source.name {} 1
    ((Text.lines source.text.toList).map String.ofList)

/-- The directives of several sources, one source after another. -/
def directivesOf (sources : List Source) : List Directive :=
  sources.flatMap (·.directives)

end Gridwright
