import Gridwright.Classifier

/-!
# Lines as an author writes them

The surface syntax of a source outside of blocks, as data: a `Statement` is a line that the
documentation describes, `Statement.text` writes it down, and `Statement.actions` and
`Statement.next` say what it asks for.  Nothing here refers to the way lines are read.

The parts of a statement carry what makes them well formed.  A quoted text holds neither quotes
nor line feeds, the suffix of a label holds neither quotes nor blank characters, and a value is
a text without blank characters at its ends.
-/

namespace Gridwright

open Gridwright.Text

/-! ### Parts of a line -/

/-- A text without quotes and line feeds. -/
structure QuotedText where
  chars : List Char
  plain : ∀ c ∈ chars, c ≠ '"' ∧ c ≠ '\n'

def QuotedText.text (quoted : QuotedText) : String := String.ofList quoted.chars

def QuotedText.written (quoted : QuotedText) : String := "\"" ++ quoted.text ++ "\""

def QuotedText.label (quoted : QuotedText) : Label := ⟨quoted.written⟩

/-- A quoted text, and a suffix glued to it that may tell two labels apart. -/
structure WrittenLabel where
  name : QuotedText
  suffix : List Char
  solid : ∀ c ∈ suffix, isBlank c = false ∧ c ≠ '"'
  noArrow : ∀ c ∈ suffix.head?, c ≠ '-' ∧ c ≠ '>'

def WrittenLabel.written (label : WrittenLabel) : String :=
  label.name.written ++ String.ofList label.suffix

def WrittenLabel.label (label : WrittenLabel) : Label := ⟨label.written⟩

/-- A text within one line and without blank characters at its ends. -/
structure Value where
  chars : List Char
  trimmed : trim chars = chars
  single : '\n' ∉ chars

def Value.text (value : Value) : String := String.ofList value.chars

/-- At least one decimal digit. -/
structure Digits where
  chars : List Char
  decimal : ∀ c ∈ chars, isDecimalDigit c = true
  nonempty : chars ≠ []

/-- What may stand behind the colon of a parent or zone line. -/
inductive WrittenReference where
  | nothing
  | dbref (number : Digits)
  | label (target : WrittenLabel)

def WrittenReference.written : WrittenReference → String
  | .nothing => ""
  | .dbref number => "#" ++ String.ofList number.chars
  | .label target => target.written

def WrittenReference.reference? : WrittenReference → Option Reference
  | .nothing => none
  | .dbref number => some (.dbref ("#" ++ String.ofList number.chars))
  | .label target => some (.label target.label)

structure WrittenHop where
  twoWay : Bool
  room : WrittenLabel

def WrittenHop.written (hop : WrittenHop) : String :=
  (if hop.twoWay then " <-> " else " -> ") ++ hop.room.written

def WrittenHop.hop (hop : WrittenHop) : Hop := ⟨hop.twoWay, hop.room.label⟩

/-! ### Statements -/

inductive Statement where
  | attrBase (path : Value)
  | exitAlias (exit names : QuotedText)
  | reverse (exit back : QuotedText)
  | reference (kind : ObjectKind) (slot : Slot) (value : WrittenReference)
  | flags (kind : ObjectKind) (value : Value)
  | inRoom (room : WrittenLabel)
  | onExit (exit : QuotedText) (room : WrittenLabel)
  /-- A path has at least one hop. -/
  | link (exit first : WrittenLabel) (hop : WrittenHop) (more : List WrittenHop)

namespace Statement

/-- A statement as a line of a source. -/
def text : Statement → String
  | .attrBase path => "ATTR BASE: " ++ path.text
  | .exitAlias exit names => "ALIAS " ++ exit.written ++ " " ++ names.written
  | .reverse exit back => "REVERSE " ++ exit.written ++ " " ++ back.written
  | .reference kind slot value =>
    Line.kindWord kind ++ " " ++ Line.slotWord slot ++ ": " ++ value.written
  | .flags kind value => Line.kindWord kind ++ " FLAGS: " ++ value.text
  | .inRoom room => "IN " ++ room.written
  | .onExit exit room => "ON " ++ exit.written ++ " FROM " ++ room.written
  | .link exit first hop more =>
    exit.written ++ " : " ++ first.written ++
      String.join ((hop :: more).map WrittenHop.written)

/-- What one hop of a path asks for, given the room that it starts from. -/
def hopActions (exit : Label) (previous : WrittenLabel) (hop : WrittenHop) : List Action :=
  [.createRoom hop.room.label, .createExit exit previous.label hop.room.label] ++
    if hop.twoWay then [.createReverseExit exit previous.label hop.room.label] else []

/-- What a statement asks for. -/
def actions : Statement → List Action
  | .attrBase path => [.attrBase path.text]
  | .exitAlias exit names => [.exitAlias exit.label names.text]
  | .reverse exit back => [.reverse exit.label back.label]
  | .reference kind slot value => [.setReference kind slot value.reference?]
  | .flags kind value => [.setFlags kind (if value.text = "" then none else some value.text)]
  | .inRoom _ | .onExit _ _ => [.nop]
  | .link exit first hop more =>
    let hops := hop :: more
    .createRoom first.label ::
      (List.zipWith (hopActions exit.label) (first :: hops.map (·.room)) hops).flatten

/-- The classifier behind a statement: a block is entered or nothing changes. -/
def next (classifier : Classifier) : Statement → Classifier
  | .inRoom room => { place := .inside (.inRoom room.label), lastLiteral := none }
  | .onExit exit room => { place := .inside (.onExit room.label exit.label), lastLiteral := none }
  | _ => classifier

end Statement

end Gridwright
