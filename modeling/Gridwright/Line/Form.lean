import Gridwright.Directive
import Gridwright.Line.Description
import Gridwright.Line.ExitFrom
import Gridwright.Line.Hop
import Gridwright.Line.Link
import Gridwright.Line.QuotedPair

/-!
# The forms of a line

A grid line has one of thirty forms.  `Form.read?` tells whether a text has a
given form and what it says then; `Form.table` lists the forms in the order in
which they are tried.  A text may have several forms: nearly every text has the
last one, `Form.anything`.

A text that holds a line feed can only have those forms whose blank parts leave
room for it.
-/

namespace Gridwright.Line

open Gridwright.Text

/-! ### Forms and readings -/

/-- How a parent or zone is given. -/
inductive ReferenceForm where
  | reset
  | dbref
  | label
deriving DecidableEq

/-- The forms of a line. -/
inductive Form where
  /-- Nothing but blank characters. -/
  | blank
  /-- `@@ …`, a comment inside a block. -/
  | ignored
  /-- `> …`, literal text inside a block. -/
  | literal
  /-- `# …`, a comment outside of blocks. -/
  | comment
  /-- `ATTR BASE: path` -/
  | attrBase
  /-- `ALIAS "exit" "names"` -/
  | exitAlias
  /-- `REVERSE "exit" "back"` -/
  | reverse
  /-- `ROOM PARENT: …` and the like. -/
  | reference (kind : ObjectKind) (slot : Slot) (form : ReferenceForm)
  /-- `ROOM FLAGS: …` and the like. -/
  | flags (kind : ObjectKind) (given : Bool)
  /-- `"exit" : "room" -> "room"` -/
  | link
  /-- `IN "room"` -/
  | inRoom
  /-- `ON "exit" FROM "room"` -/
  | onExit
  /-- `ENDIN` -/
  | endIn
  /-- `ENDON` -/
  | endOn
  /-- `DESCRIBE "room"=text` -/
  | describe
  /-- Any text of a single line. -/
  | anything
deriving DecidableEq

/-- What a text says when it is read as one of the forms. -/
inductive Reading where
  | blank
  | ignored
  | literal (text : String)
  | comment
  | attrBase (path : String)
  | exitAlias (exit : Label) (names : String)
  | reverse (exit back : Label)
  | reference (kind : ObjectKind) (slot : Slot) (value : Option Reference)
  | flags (kind : ObjectKind) (value : Option String)
  | link (exit first : Label) (hops : String)
  | inRoom (room : Label)
  | onExit (exit room : Label)
  | endIn
  | endOn
  | describe (room : Label) (text : String)
  | anything
deriving DecidableEq

/-- Whether a reading is a directive, which has its place outside of blocks.  The
two block ends are not, since they have their place inside. -/
def Reading.isDirective : Reading → Bool
  | .attrBase _ | .exitAlias _ _ | .reverse _ _ | .reference _ _ _ | .flags _ _
  | .link _ _ _ | .inRoom _ | .onExit _ _ | .describe _ _ => true
  | .blank | .ignored | .literal _ | .comment | .endIn | .endOn | .anything => false

/-! ### Sticky defaults -/

def kindWord : ObjectKind → String
  | .room => "ROOM"
  | .exit => "EXIT"

def slotWord : Slot → String
  | .parent => "PARENT"
  | .zone => "ZONE"

/-- The dbref a text consists of, gaps around it apart. -/
def dbref? (s : List Char) : Option (List Char) :=
  match trim s with
  | '#' :: digits =>
    if digits.isEmpty || !digits.all isDecimalDigit then none else some ('#' :: digits)
  | _ => none

/-- The value of a parent or zone line, read from what stands behind the colon. -/
def referenceValue? (form : ReferenceForm) (s : List Char) : Option (Option Reference) :=
  match form with
  | .reset => if isBlankText s then some none else none
  | .dbref => (dbref? s).map fun text => some (.dbref (String.ofList text))
  | .label =>
    (closingLabel? (trimStart s)).map fun text => some (.label ⟨String.ofList text⟩)

/-- The flags a text consists of.  Gaps around them do not count, unless there is
nothing else: then the flags are the last blank character that is not a line
feed. -/
def flagsText? (s : List Char) : Option (List Char) :=
  if isBlankText s then
    (s.filter (· != '\n')).getLast?.map ([·])
  else if isSingleLine (trim s) then
    some (trim s)
  else
    none

/-- The value of a flags line, read from what stands behind the colon. -/
def flagsValue? (given : Bool) (s : List Char) : Option (Option String) :=
  if given then (flagsText? s).map fun text => some (String.ofList text)
  else if isBlankText s then some none
  else none

/-! ### Aliases and reverses -/

/-- The two quoted texts behind a keyword in any case and an optional colon. -/
def keywordPair? (word : String) (s : List Char) : Option (List Char × List Char) :=
  (keywordAnyCase? word s).bind fun rest =>
    match trimStart rest with
    | ':' :: behind => quotedPair? (trimStart behind)
    | other => quotedPair? other

/-- The label that consists of a text between quotes. -/
def quotedLabel (body : List Char) : Label := ⟨String.ofList ('"' :: body ++ ['"'])⟩

/-! ### Descriptions -/

/-- The room and the text of a `DESC` or `DESCRIBE` line. -/
def describe? (s : List Char) : Option (List Char × List Char) :=
  (keyword? "DESC" s).bind fun rest =>
    (gap? ((keyword? "RIBE" rest).getD rest)).bind description?

/-! ### Reading -/

/-- What a text says when it is read as the given form, if it has that form. -/
def Form.read? (form : Form) (s : List Char) : Option Reading :=
  match form with
  | .blank => if isBlankText s then some .blank else none
  | .ignored => (keyword? "@@" s).map fun _ => .ignored
  | .literal => (keyword? ">" s).map fun rest => .literal (String.ofList rest)
  | .comment =>
    (keyword? "#" s).bind fun rest => if isSingleLine rest then some .comment else none
  | .attrBase =>
    (keyword? "ATTR BASE:" s).bind fun rest =>
      let path := trimStart rest
      if isSingleLine path then some (.attrBase (String.ofList path)) else none
  | .exitAlias =>
    (keywordPair? "ALIAS" s).map fun (exit, names) =>
      .exitAlias (quotedLabel exit) (String.ofList names)
  | .reverse =>
    (keywordPair? "REVERSE" s).map fun (exit, back) =>
      .reverse (quotedLabel exit) (quotedLabel back)
  | .reference kind slot form =>
    (keyword? (kindWord kind ++ " " ++ slotWord slot ++ ":") s).bind fun rest =>
      (referenceValue? form rest).map (.reference kind slot)
  | .flags kind given =>
    (keyword? (kindWord kind ++ " FLAGS:") s).bind fun rest =>
      (flagsValue? given rest).map (.flags kind)
  | .link =>
    (link? s).map fun (exit, first, hops) =>
      .link ⟨String.ofList exit⟩ ⟨String.ofList first⟩ (String.ofList hops)
  | .inRoom =>
    (keyword? "IN" s).bind fun rest =>
      ((gap? rest).bind closingLabel?).map fun room => .inRoom ⟨String.ofList room⟩
  | .onExit =>
    (keyword? "ON" s).bind fun rest =>
      ((gap? rest).bind exitFrom?).map fun (exit, room) =>
        .onExit (quotedLabel exit) ⟨String.ofList room⟩
  | .endIn =>
    (keyword? "ENDIN" s).bind fun rest => if isBlankText rest then some .endIn else none
  | .endOn =>
    (keyword? "ENDON" s).bind fun rest => if isBlankText rest then some .endOn else none
  | .describe =>
    (describe? s).map fun (room, text) => .describe ⟨String.ofList room⟩ (String.ofList text)
  | .anything => if s.isEmpty || !isSingleLine s then none else some .anything

/-- The forms of a default line for one kind of object. -/
def Form.defaults (kind : ObjectKind) : List Form :=
  [.reference kind .parent .reset, .reference kind .parent .dbref,
   .reference kind .parent .label, .reference kind .zone .reset,
   .reference kind .zone .dbref, .reference kind .zone .label,
   .flags kind false, .flags kind true]

/-- The forms in the order in which they are tried. -/
def Form.table : List Form :=
  [.blank, .ignored, .literal, .comment, .attrBase, .exitAlias, .reverse] ++
    Form.defaults .room ++ Form.defaults .exit ++
    [.link, .inRoom, .onExit, .endIn, .endOn, .describe, .anything]

/-- Everything a text can be read as, in the order of the table. -/
def readings (text : String) : List Reading :=
  Form.table.filterMap (·.read? text.toList)

end Gridwright.Line
