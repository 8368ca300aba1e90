import Gridwright.Proofs.Attribute
import Gridwright.Proofs.Script.Trace
import Gridwright.Proofs.Softcode

/-!
# Names stay inside their calls

A managed script creates rooms, proxies and exits and gives parents by calling functions, and
names stand among the arguments.  Which calls the evaluator sees is decided by the characters
that open, close and divide them.  Those of a command are its shape, read as the evaluator reads:
a character behind a backslash does not count.

A name is escaped where it is an argument and spelled as part of an attribute where it is looked
up, and neither way has a shape.  So the shape of a command is that of the text around the names,
which is fixed for each form of call (`calls_keep_shape`).
-/

namespace Gridwright

namespace Softcode

/-! ### Shapes -/

/-- The characters that open, close and divide calls. -/
def shapeChars : List Char := ['(', ')', '[', ']', '\x7b', '\x7d', ',', ';']

def Token.shape? : Token → Option Char
  | .plain c => if c ∈ shapeChars then some c else none
  | .escaped _ | .lone => none

/-- The characters of a text that open, close and divide calls, from left to right. -/
def shape (s : List Char) : List Char := (scan s).filterMap Token.shape?

/-- A text without a shape that leaves the shape of what stands behind it as it is. -/
structure Shapeless (s : List Char) : Prop where
  closed : Token.lone ∉ scan s
  shape_eq : shape s = []

theorem shape_append {s : List Char} (h : Token.lone ∉ scan s) (t : List Char) :
    shape (s ++ t) = shape s ++ shape t := by
  rw [shape, scan_append h, List.filterMap_append]
  rfl

theorem Shapeless.append {s t : List Char} (hs : Shapeless s) (ht : Shapeless t) :
    Shapeless (s ++ t) := by
  constructor
  · rw [scan_append hs.closed, List.mem_append, not_or]
    exact ⟨hs.closed, ht.closed⟩
  · rw [shape_append hs.closed, hs.shape_eq, ht.shape_eq, List.append_nil]

/-- What is shapeless in the gaps is not seen in the shape of the whole. -/
theorem shape_weave {texts gaps : List (List Char)}
    (htexts : ∀ text ∈ texts, Token.lone ∉ scan text) (hgaps : ∀ gap ∈ gaps, Shapeless gap) :
    shape (weave texts gaps) = texts.flatMap shape := by
  fun_induction weave texts gaps with
  | case1 => rfl
  | case2 text texts ih =>
      obtain ⟨hclosed, hrest⟩ := List.forall_mem_cons.mp htexts
      rw [shape_append hclosed, ih hrest hgaps, List.flatMap_cons]
  | case3 text texts gap gaps ih =>
      obtain ⟨hclosed, hrest⟩ := List.forall_mem_cons.mp htexts
      obtain ⟨hgap, hothers⟩ := List.forall_mem_cons.mp hgaps
      rw [shape_append hclosed, shape_append hgap.closed, hgap.shape_eq, ih hrest hothers,
        List.nil_append, List.flatMap_cons]

theorem shapeless_of_forall {s : List Char} (h : ∀ c ∈ s, c ∉ '\\' :: shapeChars) :
    Shapeless s := by
  have hscan : scan s = s.map .plain :=
    scan_of_no_backslash fun hslash => h _ hslash List.mem_cons_self
  constructor
  · simp [hscan]
  · rw [shape, hscan, List.filterMap_map, List.filterMap_eq_nil_iff]
    intro c hc
    exact if_neg fun hshape => h c hc (List.mem_cons_of_mem _ hshape)

/-- How the evaluator meets an escaped character has no shape: the characters that open, close
and divide calls are all special. -/
theorem shape?_of_mem_tokens {c : Char} {token : Token} (h : token ∈ tokens c) :
    token.shape? = none := by
  unfold tokens at h
  split at h
  · rcases List.mem_cons.mp h with rfl | hlast
    · rfl
    · rw [List.mem_singleton.mp hlast]
      rfl
  · split at h
    · rw [List.mem_singleton.mp h]
      rfl
    · rename_i hplain
      have hspecial : ∀ d ∈ shapeChars, d ∈ specialChars :=
        List.all_iff_forall_prop.mp (by decide)
      rw [List.mem_singleton.mp h]
      exact if_neg fun hshape => hplain (hspecial c hshape)

theorem shapeless_escape (text : String) : Shapeless (escape text).toList := by
  have hscan : scan (escape text).toList = (lineFeeds text.toList).flatMap tokens := by
    rw [escape, String.toList_ofList, scan_escapeChars]
  constructor
  · rw [hscan]
    intro h
    obtain ⟨c, -, hmem⟩ := List.mem_flatMap.mp h
    exact lone_not_mem_tokens c hmem
  · rw [shape, hscan, List.filterMap_eq_nil_iff]
    intro token htoken
    obtain ⟨c, -, hmem⟩ := List.mem_flatMap.mp htoken
    exact shape?_of_mem_tokens hmem

end Softcode

open Softcode

/-- A path without a backslash and without the characters that shape calls. -/
def Room.PlainBase (room : Room) : Prop := ∀ c ∈ room.attrBase.toList, c ∉ '\\' :: shapeChars

instance (room : Room) : Decidable room.PlainBase :=
  List.decidableBAll (· ∉ '\\' :: shapeChars) room.attrBase.toList

theorem Room.shapeless_attrName {room : Room} (h : room.PlainBase) :
    Shapeless room.attrName.toList := by
  have hrefused : ∀ c ∈ '\\' :: shapeChars, c ∈ Attribute.refusedChars :=
    List.all_iff_forall_prop.mp (by decide)
  have hkey : Shapeless room.label.key.toList := by
    apply shapeless_of_forall
    intro c hc hshape
    rw [Label.key, String.toList_ofList] at hc
    exact (Attribute.not_refused_of_mem_escapeChars hc).2 (hrefused c hshape)
  rw [Room.attrName, String.toList_append]
  exact (shapeless_of_forall h).append hkey

/-! ### Forms of calls -/

/-- What a call of a managed script is for. -/
inductive CallForm where
  /-- To dig a room and store its dbref. -/
  | room
  /-- To create a proxy and store its dbref. -/
  | proxy
  /-- To open an exit. -/
  | exit
  /-- To give a parent. -/
  | parent
deriving DecidableEq

/-- The shape of all calls of a form. -/
def CallForm.shape : CallForm → List Char
  | .room => "(,[(,((),,(),(,,)))])".toList
  | .proxy => "(,[(,(,))])".toList
  | .exit => "[(,(((,(,,))),(),((),,(),(,,))))][(,())]".toList
  | .parent => "(,[()])".toList

/-- The text around the names in a call. -/
def CallForm.texts : CallForm → List String
  | .room =>
    ["think set(me,", ":[default(me/", ",switch(functions(),* DIG *,dig(", "),create(", ",,r)))])"]
  | .proxy => ["think set(me,", ":[default(me/", ",create(", ",10))])"]
  | .exit =>
    ["@teleport [setr(0,ifelse(t(setr(0,locate(me,",
      ",eE))),r(0),switch(functions(),* OPEN *,open(", "),create(",
      ",,e))))][link(%q0,v(", "))]=here"]
  | .parent => ["think parent(", ",[v(", ")])"]

theorem CallForm.shape_of_weave {form : CallForm} {s : List Char} (names : List String)
    (hs : s = weave (form.texts.map (·.toList)) (names.map (·.toList)))
    (hnames : ∀ name ∈ names, Shapeless name.toList) : Softcode.shape s = form.shape := by
  have htexts : ∀ text ∈ form.texts.map (·.toList), Token.lone ∉ scan text := by
    cases form <;> exact List.all_iff_forall_prop.mp (by decide +kernel)
  have hshape : (form.texts.map (·.toList)).flatMap Softcode.shape = form.shape := by
    cases form <;> decide +kernel
  rw [hs, shape_weave htexts (List.forall_mem_map.mpr hnames), hshape]

def Command.callForm? : Command → Option CallForm
  | .ensureRoom _ _ => some .room
  | .ensureThing _ _ => some .proxy
  | .ensureExit _ _ _ => some .exit
  | .setParentByFunction _ _ => some .parent
  | _ => none

namespace Script

variable {grid : Grid}

/-- The commands of a managed script: calls that reach rooms of the grid, and commands that
create, open and give parents in none of these forms. -/
inductive Formed (grid : Grid) : Command → Prop
  | room {room : Room} : room ∈ grid.rooms → Formed grid (.ensureRoom room.attrName room.name)
  | proxy {room : Room} : room ∈ grid.rooms → Formed grid (.ensureThing room.attrName room.name)
  | exit (fullName shortName : String) {room : Room} :
      room ∈ grid.rooms → Formed grid (.ensureExit fullName shortName room.attrName)
  | parent (subject : String) {room : Room} :
      room ∈ grid.rooms → Formed grid (.setParentByFunction subject (.stored room.attrName))
  | other {command : Command} :
      command.callForm? = none → command.stores? = none → command.opens = false →
        Formed grid command

theorem Formed.isSome_callForm? {command : Command} (h : Formed grid command)
    (hacts : command.stores?.isSome ∨ command.opens) : command.callForm?.isSome := by
  cases h with
  | room | proxy | exit | parent => rfl
  | other hform hstores hopens => simp [hstores, hopens] at hacts

/-- The names in a call leave its shape as it is. -/
theorem Formed.shape_render {command : Command} {form : CallForm} (h : Formed grid command)
    (hbases : ∀ room ∈ grid.rooms, room.PlainBase) (hform : command.callForm? = some form) :
    shape command.render.toList = form.shape := by
  have hattr := fun room hroom => Room.shapeless_attrName (hbases room hroom)
  -- the words of every call are the texts of its form
  cases h with
  | @room room hroom | @proxy room hroom | @exit fullName shortName room hroom
  | @parent subject room hroom =>
      cases hform
      apply CallForm.shape_of_weave (Command.given _) (Command.toList_render _)
      simp [Command.given, hattr room hroom, shapeless_escape]
  | other hnone => cases hnone.symm.trans hform

/-! ### The commands of a managed script -/

theorem formed_of_mem_proxy {room : Room} (hroom : room ∈ grid.rooms) {command : Command}
    (h : command ∈ proxy .managed room) : Formed grid command := by
  simp only [proxy, createProxy, List.mem_append, List.mem_cons, List.not_mem_nil, or_false] at h
  rcases h with (rfl | rfl | rfl | rfl) | hcode
  · exact .proxy hroom
  · exact .other rfl rfl rfl
  · exact .other rfl rfl rfl
  · exact .other rfl rfl rfl
  · unfold proxyCode at hcode
    split at hcode
    · cases hcode
    · simp only [List.mem_cons, List.not_mem_nil, or_false] at hcode
      rcases hcode with rfl | rfl | rfl | rfl | rfl <;> exact .other rfl rfl rfl

theorem formed_of_mem_proxies {role : String} {labels : List Label} {command : Command}
    (h : command ∈ proxies .managed grid role labels) : Formed grid command := by
  unfold proxies at h
  split at h
  · cases h
  · rcases List.mem_cons.mp h with rfl | hmem
    · exact .other rfl rfl rfl
    · obtain ⟨room, hroom, hproxy⟩ := List.mem_flatMap.mp hmem
      obtain ⟨label, -, hfound⟩ := List.mem_filterMap.mp hroom
      exact formed_of_mem_proxy (List.mem_of_find?_eq_some hfound) hproxy

theorem formed_of_mem_opening {promotion : Promotion} {command : Command}
    (h : command ∈ opening .managed grid promotion) : Formed grid command := by
  simp only [opening, List.mem_append] at h
  rcases h with (((hpreamble | htrees) | hparents) | hzones) | hannounce
  · rcases List.mem_cons.mp hpreamble with rfl | hmem
    · exact .other rfl rfl rfl
    · obtain ⟨line, -, rfl⟩ := List.mem_map.mp hmem
      exact .other rfl rfl rfl
  · unfold attributeTrees at htrees
    split at htrees
    · cases htrees
    · rcases List.mem_cons.mp htrees with rfl | hmem
      · exact .other rfl rfl rfl
      · obtain ⟨branch, -, rfl⟩ := List.mem_map.mp hmem
        exact .other rfl rfl rfl
  · exact formed_of_mem_proxies hparents
  · exact formed_of_mem_proxies hzones
  · rw [List.mem_singleton.mp hannounce]
    exact .other rfl rfl rfl

/-- A parent is given by a call only where it is a room of the grid. -/
theorem formed_of_mem_wire {subject : String} {traits : Traits} {command : Command}
    (h : .ok command ∈ wire .managed grid subject traits) : Formed grid command := by
  simp only [wire, List.mem_append, List.mem_map] at h
  rcases h with (⟨reference, -, hstep⟩ | ⟨reference, -, hstep⟩) | ⟨flags, -, hstep⟩
  · cases reference with
    | dbref text =>
        cases hstep
        exact .other rfl rfl rfl
    | label label =>
        cases hmaster : grid.room? label with
        | none =>
            simp only [target, hmaster] at hstep
            cases hstep
        | some master =>
            simp only [target, hmaster] at hstep
            cases hstep
            exact .parent subject (List.mem_of_find?_eq_some hmaster)
  · cases hfound : target grid reference with
    | error cause =>
        rw [hfound] at hstep
        cases hstep
    | ok found =>
        rw [hfound] at hstep
        cases hstep
        exact .other rfl rfl rfl
  · cases hstep
    exact .other rfl rfl rfl

theorem formed_of_mem_runCode {code : String} {command : Command} (h : command ∈ runCode code) :
    Formed grid command := by
  unfold runCode at h
  split at h
  · cases h
  · rw [List.mem_singleton.mp h]
    exact .other rfl rfl rfl

theorem formed_of_mem_digging (hclosed : grid.Closed) {command : Command}
    (h : command ∈ (digging .managed grid).map (·.2)) : Formed grid command := by
  rw [map_snd_digging] at h
  obtain ⟨room, hroom, hmem⟩ := List.mem_flatMap.mp h
  obtain ⟨hknown, hreal⟩ := mem_buildOrder.mp hroom
  rw [commands_dig] at hmem
  rcases List.mem_append.mp hmem with hcreate | hwire
  · rcases List.mem_cons.mp hcreate with rfl | hgo
    · exact .room hknown
    · rw [List.mem_singleton.mp hgo]
      exact .other rfl rfl rfl
  · rw [mem_commands (wire_ok (hclosed.room room hknown hreal) .managed "here")] at hwire
    exact formed_of_mem_wire hwire

theorem formed_of_mem_openExit {exit : Exit} (htarget : grid.hasRoom exit.target = true)
    (htraits : grid.Resolves exit.traits) {command : Command}
    (h : command ∈ commands (openExit .managed grid exit)) : Formed grid command := by
  rw [commands_openExit htarget htraits] at h
  rcases List.mem_cons.mp h with rfl | hrest
  · obtain ⟨room, hroom⟩ := Option.isSome_iff_exists.mp htarget
    rw [destination, hroom]
    exact .exit _ _ (List.mem_of_find?_eq_some hroom)
  · rcases List.mem_append.mp hrest with hwire | hrun
    · rw [mem_commands (wire_ok htraits .managed _)] at hwire
      exact formed_of_mem_wire hwire
    · exact formed_of_mem_runCode hrun

theorem formed_of_mem_closing (hclosed : grid.Closed) {command : Command}
    (h : command ∈ closing .managed grid) : Formed grid command := by
  rcases List.mem_append.mp h with hlinks | hwarnings
  · rcases List.mem_cons.mp hlinks with rfl | hlink
    · exact .other rfl rfl rfl
    · obtain ⟨room, hroom, hmem⟩ := List.mem_flatMap.mp hlink
      obtain ⟨hknown, hreal⟩ := mem_buildOrder.mp hroom
      rw [commands_link (hclosed.exit room hknown hreal)] at hmem
      simp only [List.mem_append, List.mem_flatMap] at hmem
      rcases hmem with hwarn | hgo | ⟨exit, hexit, hopen⟩ | hrun
      · split at hwarn
        · rw [List.mem_singleton.mp hwarn]
          exact .other rfl rfl rfl
        · cases hwarn
      · split at hgo
        · rw [List.mem_singleton.mp hgo]
          exact .other rfl rfl rfl
        · cases hgo
      · obtain ⟨htarget, htraits⟩ := hclosed.exit room hknown hreal exit hexit
        exact formed_of_mem_openExit htarget htraits hopen
      · exact formed_of_mem_runCode hrun
  · obtain ⟨room, -, rfl⟩ := List.mem_map.mp hwarnings
    exact .other rfl rfl rfl

theorem formed_of_mem_script (h : grid.Coherent) {command : Command}
    (hcommand : command ∈ script .managed grid) : Formed grid.promote.1 command := by
  simp only [script, List.mem_append] at hcommand
  rcases hcommand with (hopening | hdigging) | hclosing
  · exact formed_of_mem_opening hopening
  · exact formed_of_mem_digging h.closed_promote hdigging
  · exact formed_of_mem_closing h.closed_promote hclosing

/-! ### Scripts -/

/-- In every managed script for what directives declare, where the attribute paths hold no
backslash and nothing that shapes a call: the commands that store a dbref or open an exit are
calls of known forms, and the shape of a call, those that give a parent included, is that of its
form.  No name of a room or an exit has a part in it. -/
theorem calls_keep_shape {options : BuildOptions} {directives : List Directive}
    {builder : Builder} (hrun : Builder.applyAll options {} directives = .ok builder)
    (hbases : ∀ room ∈ builder.grid.promote.1.rooms, room.PlainBase) :
    ∃ commands, generate .managed builder.grid = .ok commands ∧
      ∀ command ∈ commands,
        (command.stores?.isSome ∨ command.opens → command.callForm?.isSome) ∧
        ∀ form, command.callForm? = some form → shape command.render.toList = form.shape := by
  have h : builder.grid.Coherent := (Builder.coherent_of_applyAll hrun).grid
  refine ⟨_, generate_eq_script h .managed, ?_⟩
  intro command hcommand
  have hformed := formed_of_mem_script h hcommand
  exact ⟨hformed.isSome_callForm?, fun form => hformed.shape_render hbases⟩

/-- Names that would close a call and open another one, were they written as they are. -/
theorem calls_keep_shape_sample :
    let source : Source := ⟨"manor.qb", "ROOM PARENT: \"Area)]\"\n" ++
      "\"<O>ut),destroy(;[o]\" : \"Hall\\\" -> \"Yard,((\"\n"⟩
    ∃ builder commands, buildSources {} [source] = .ok builder ∧
      (∀ room ∈ builder.grid.promote.1.rooms, room.PlainBase) ∧
      generate .managed builder.grid = .ok commands ∧
      commands.filterMap (·.callForm?) = [.proxy, .room, .parent, .room, .parent, .exit] ∧
      ∀ command ∈ commands, ∀ form, command.callForm? = some form →
        shape command.render.toList = form.shape := by
  intro source
  have hseen : (buildSources {} [source]).map (fun builder =>
      decide ((∀ room ∈ builder.grid.promote.1.rooms, room.PlainBase) ∧
        (generate .managed builder.grid).map (·.filterMap (·.callForm?)) =
          .ok [.proxy, .room, .parent, .room, .parent, .exit])) = .ok true := by
    decide +kernel
  obtain ⟨builder, hbuild, hbases, hforms⟩ := Builder.exists_of_decide_applyAll hseen
  obtain ⟨commands, hcommands, hshapes⟩ := calls_keep_shape hbuild hbases
  rw [hcommands] at hforms
  refine ⟨builder, commands, hbuild, hbases, hcommands, Except.ok.inj hforms, ?_⟩
  exact fun command hcommand => (hshapes command hcommand).2

end Script

end Gridwright
