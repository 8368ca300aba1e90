import Gridwright.Script.Command

/-!
# The words of a command

The text of a command is made of words that are always the same and of what is filled in between
them: names, attributes, code of the grid.  `Command.words` and `Command.given` tell the two apart,
and `Command.toList_render` says that they make up the text.  So what a script says about its
commands, what they look up and store, dig and open, can be held against the words that they are
written in.
-/

namespace Gridwright

namespace Softcode

/-- Texts with other texts in the gaps between them. -/
def weave : List (List Char) → List (List Char) → List Char
  | [], _ => []
  | text :: texts, [] => text ++ weave texts []
  | text :: texts, gap :: gaps => text ++ (gap ++ weave texts gaps)

theorem prefix_weave (text : List Char) (texts gaps : List (List Char)) :
    text <+: weave (text :: texts) gaps := by
  cases gaps <;> exact List.prefix_append _ _

/-- A gap is seen between the texts on both sides of it. -/
theorem infix_weave {texts gaps : List (List Char)} {before gap after : List Char}
    (h : (before, gap, after) ∈ texts.zip (gaps.zip texts.tail)) :
    before ++ (gap ++ after) <:+: weave texts gaps := by
  induction texts generalizing gaps with
  | nil => cases h
  | cons text texts ih =>
      match gaps, texts with
      | [], _ => cases h
      | _ :: _, [] => cases h
      | first :: gaps, next :: texts =>
          rcases List.mem_cons.mp h with heq | hrest
          · cases heq
            obtain ⟨behind, hweave⟩ := prefix_weave after texts gaps
            rw [weave, ← hweave]
            exact ⟨[], behind, by simp⟩
          · obtain ⟨front, behind, hweave⟩ := ih hrest
            rw [weave, ← hweave]
            exact ⟨text ++ (first ++ front), behind, by simp⟩

end Softcode

namespace Command

/-! ### Words and what is between them -/

/-- What the text of a command says whatever is filled in. -/
def words : Command → List String
  | .comment _ => ["@@ "]
  | .announce _ => ["think "]
  | .warn _ => ["think WARNING: "]
  | .makeBranch _ => ["&", " me=Placeholder"]
  | .digAndEnter _ => ["@dig/teleport "]
  | .storeHere _ => ["@set me=", ":%l"]
  | .storeHereByFunction _ => ["think set(me,", ":%l)"]
  | .createThing _ _ => ["think set(me,", ":[create(", ",10)])"]
  | .ensureThing _ _ => ["think set(me,", ":[default(me/", ",create(", ",10))])"]
  | .ensureRoom _ _ =>
    ["think set(me,", ":[default(me/", ",switch(functions(),* DIG *,dig(", "),create(", ",,r)))])"]
  | .lock _ => ["@lock [v(", ")]= =me"]
  | .lockZone _ => ["@lock/zone [v(", ")]= =me"]
  | .linkHome _ => ["@link [v(", ")]=me"]
  | .goTo _ => ["@teleport [v(", ")]"]
  | .putHere _ => ["@teleport [v(", ")]=here"]
  | .goOut _ => ["@teleport [loc(v(", "))]"]
  | .takeBack _ => ["@teleport [v(", ")]=me"]
  | .run _ => [""]
  | .ensureExit _ _ _ =>
    ["@teleport [setr(0,ifelse(t(setr(0,locate(me,",
      ",eE))),r(0),switch(functions(),* OPEN *,open(", "),create(",
      ",,e))))][link(%q0,v(", "))]=here"]
  | .openExit _ _ => ["@open ", "=[v(", ")]"]
  | .setParent _ (.dbref _) => ["@parent ", "="]
  | .setParent _ (.stored _) => ["@parent ", "=[v(", ")]"]
  | .setParentByFunction _ (.dbref _) => ["think parent(", ",", ")"]
  | .setParentByFunction _ (.stored _) => ["think parent(", ",[v(", ")])"]
  | .setZone _ (.dbref _) => ["@chzone ", "="]
  | .setZone _ (.stored _) => ["@chzone ", "=[v(", ")]"]
  | .setFlags _ _ => ["@set ", "="]

/-- What is filled in behind the words of a command, in this order. -/
def given : Command → List String
  | .comment text | .announce text | .warn text => [text]
  | .makeBranch branch => [branch]
  | .digAndEnter name => [name]
  | .storeHere attr | .storeHereByFunction attr => [attr]
  | .createThing attr name => [attr, Softcode.escape name]
  | .ensureThing attr name => [attr, attr, Softcode.escape name]
  | .ensureRoom attr name => [attr, attr, Softcode.escape name, Softcode.escape name]
  | .lock attr | .lockZone attr | .linkHome attr | .goTo attr | .putHere attr | .goOut attr
  | .takeBack attr => [attr]
  | .run code => [code]
  | .ensureExit fullName shortName target =>
    [Softcode.escape shortName, Softcode.escape fullName, Softcode.escape fullName, target]
  | .openExit fullName target => [fullName, target]
  | .setParent subject (.dbref text) | .setZone subject (.dbref text) => [subject, text]
  | .setParent subject (.stored attr) | .setZone subject (.stored attr) => [subject, attr]
  | .setParentByFunction subject (.dbref text) => [Softcode.escape subject, text]
  | .setParentByFunction subject (.stored attr) => [Softcode.escape subject, attr]
  | .setFlags subject flags => [subject, flags]

/-- The text of a command is its words with what is filled in between them. -/
theorem toList_render (command : Command) :
    command.render.toList =
      Softcode.weave (command.words.map (·.toList)) (command.given.map (·.toList)) := by
  cases command with
  | setParent subject target | setParentByFunction subject target | setZone subject target =>
      cases target with
      | dbref text | stored text =>
          unfold render words given Target.render
          simp [Softcode.weave, lookUp]
  | _ =>
      unfold render words given
      simp [Softcode.weave, lookUp]

theorem prefix_render {command : Command} {word text : String}
    (hword : command.words.head? = some word) (htext : command.given.head? = some text) :
    (word ++ text).toList <+: command.render.toList := by
  obtain ⟨words, hwords⟩ := List.head?_eq_some_iff.mp hword
  obtain ⟨given, hgiven⟩ := List.head?_eq_some_iff.mp htext
  rw [toList_render, hwords, hgiven, String.toList_append]
  exact ⟨_, List.append_assoc _ _ _⟩

/-! ### Calls -/

/-- Whether what stands between two words is the argument of a call. -/
def isArgument (call before after : String) : Bool :=
  call.toList.isSuffixOf before.toList && ")".toList.isPrefixOf after.toList

/-- What is filled in as the argument of a call, where the call is given up to its bracket. -/
def arguments (call : String) (command : Command) : List String :=
  ((command.words.zip (command.given.zip command.words.tail)).filter fun part =>
    isArgument call part.1 part.2.2).map (·.2.1)

/-- The arguments of a call stand in the text as such. -/
theorem infix_render {command : Command} {call argument : String}
    (h : argument ∈ command.arguments call) :
    (call ++ argument ++ ")").toList <:+: command.render.toList := by
  obtain ⟨⟨before, gap, after⟩, hpart, rfl⟩ := List.mem_map.mp h
  obtain ⟨hmem, hcall⟩ := List.mem_filter.mp hpart
  obtain ⟨hbefore, hafter⟩ := Bool.and_eq_true_iff.mp hcall
  obtain ⟨front, hfront⟩ := List.isSuffixOf_iff_suffix.mp hbefore
  obtain ⟨behind, hbehind⟩ := List.isPrefixOf_iff_prefix.mp hafter
  have hweave : (before.toList, gap.toList, after.toList) ∈ (command.words.map (·.toList)).zip
      ((command.given.map (·.toList)).zip (command.words.map (·.toList)).tail) := by
    rw [← List.map_tail, List.zip_map, List.zip_map]
    exact List.mem_map.mpr ⟨_, hmem, rfl⟩
  obtain ⟨start, rest, htext⟩ := Softcode.infix_weave hweave
  refine ⟨start ++ front, behind ++ rest, ?_⟩
  rw [command.toList_render, ← htext, ← hfront, ← hbehind]
  simp

end Command

end Gridwright
