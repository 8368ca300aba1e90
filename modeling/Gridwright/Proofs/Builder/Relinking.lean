import Gridwright.Proofs.Builder.Actions
import Gridwright.Proofs.Classifier.RoomsFirst
import Gridwright.Proofs.Classifier.Statements

/-!
# Links that are applied again

A link line may stand in a source twice.  What it asks for is then done already, and what could
not be done the first time cannot be done the second time either: `Builder.Done` says so of a
single action.  Links take nothing away, so an action that is done stays done while the rest of
the line is applied, and the second round changes nothing.
-/

namespace Gridwright

/-- Whether an action is one of those that a link line asks for. -/
def Action.isLinking : Action → Bool
  | .createRoom _ | .createExit _ _ _ | .createReverseExit _ _ _ => true
  | _ => false

theorem isLinking_pathActions (exit previous : Label) (hops : List Hop) :
    ∀ action ∈ pathActions exit previous hops, action.isLinking = true := by
  induction hops generalizing previous with
  | nil =>
      intro action hmem
      cases hmem
  | cons hop rest ih =>
      intro action hmem
      simp only [pathActions, List.mem_cons, List.mem_append] at hmem
      rcases hmem with rfl | rfl | hback | hrest
      · rfl
      · rfl
      · split at hback
        · rw [List.mem_singleton.mp hback]
          rfl
        · cases hback
      · exact ih hop.room action hrest

theorem isLinking_linkActions (exit first : Label) (hops : String) :
    ∀ action ∈ linkActions exit first hops, action.isLinking = true := by
  intro action hmem
  rcases List.mem_cons.mp hmem with rfl | hpath
  · rfl
  · exact isLinking_pathActions exit first _ action hpath

namespace Grid

variable {grid : Grid}

theorem isSome_exit?_withRoom {room exit : Label} (h : (grid.exit? room exit).isSome = true)
    (added : Room) : ((grid.withRoom added).exit? room exit).isSome = true := by
  obtain ⟨held, hheld⟩ := Option.isSome_iff_exists.mp h
  obtain ⟨found, hfound, hexit⟩ := Option.bind_eq_some_iff.mp hheld
  simp only [exit?, room?_withRoom, hfound, Option.some_or, Option.bind_some, hexit,
    Option.isSome_some]

theorem isSome_exit?_withExit {room exit : Label} (h : (grid.exit? room exit).isSome = true)
    (added : Exit) : ((grid.withExit added).exit? room exit).isSome = true := by
  obtain ⟨held, hheld⟩ := Option.isSome_iff_exists.mp h
  obtain ⟨found, hfound, hexit⟩ := Option.bind_eq_some_iff.mp hheld
  have hkey : found.exitAt? exit.key = some held := hexit
  simp only [exit?, room?_withExit, hfound, Option.map_some, Option.bind_some]
  split
  · simp only [Room.exit?, Room.exitAt?_withExit, hkey, Option.some_or, Option.isSome_some]
  · rw [hexit, Option.isSome_some]

/-- An exit that is added to a room is found there. -/
theorem isSome_exit?_added (exit : Exit) {room : Room}
    (hroom : grid.room? exit.source = some room) :
    ((grid.withExit exit).exit? exit.source exit.label).isSome = true := by
  have hkey : exit.key = exit.label.key := rfl
  simp only [exit?, room?_withExit, hroom, Option.map_some, Option.bind_some, if_true, Room.exit?,
    Room.exitAt?_withExit, hkey, Option.isSome_or, Option.isSome_some, Bool.or_true]

end Grid

namespace Builder

variable {options : BuildOptions} {builder next : Builder}

/-! ### Builders that grow -/

/-- The other builder has the same context and all the rooms and exits. -/
structure Grows (builder next : Builder) : Prop where
  context : next.context = builder.context
  room : ∀ label, builder.grid.hasRoom label = true → next.grid.hasRoom label = true
  exit : ∀ room exit, (builder.grid.exit? room exit).isSome = true →
    (next.grid.exit? room exit).isSome = true

theorem Grows.refl (builder : Builder) : builder.Grows builder :=
  ⟨rfl, fun _ h => h, fun _ _ h => h⟩

theorem Grows.trans {reached : Builder} (h : builder.Grows reached) (hnext : reached.Grows next) :
    builder.Grows next :=
  ⟨hnext.context.trans h.context, fun label hlabel => hnext.room label (h.room label hlabel),
    fun room exit hexit => hnext.exit room exit (h.exit room exit hexit)⟩

theorem grows_createRoom (label : Label) : builder.Grows (builder.createRoom label) := by
  cases hroom : builder.grid.hasRoom label with
  | true =>
      rw [createRoom_of_hasRoom hroom]
      exact .refl builder
  | false =>
      rw [createRoom_of_not_hasRoom hroom]
      refine ⟨rfl, fun other hother => ?_, fun room exit hexit => ?_⟩
      · simp [hother]
      · have hresolved : ((builder.grid.resolvePending label).exit? room exit).isSome = true :=
          hexit
        exact Grid.isSome_exit?_withRoom hresolved _

theorem grows_createExit {label source target : Label}
    (h : builder.createExit options label source target = .ok next) : builder.Grows next := by
  obtain ⟨room, -, -, -, rfl⟩ := createExit_eq_ok_iff.mp h
  refine ⟨rfl, fun other hother => ?_, fun room exit hexit => ?_⟩
  · simpa using hother
  · exact Grid.isSome_exit?_withExit hexit _

theorem grows_act {location : Location} {action : Action} (hlinking : action.isLinking = true)
    (h : builder.act options location action = .ok next) : builder.Grows next := by
  cases action with
  | createRoom room =>
      cases h
      exact grows_createRoom room
  | createExit exit source target => exact grows_createExit h
  | createReverseExit exit source target =>
      obtain ⟨back, -, hopen⟩ := createReverseExit_eq_ok_iff.mp h
      exact grows_createExit hopen
  | nop | error | warning | attrBase | exitAlias | reverse | setReference | setFlags | bufferRoom
  | bufferExit => cases hlinking

theorem grows_attempt {directive : Directive} (hlinking : directive.action.isLinking = true) :
    builder.Grows (builder.attempt options directive) := by
  unfold attempt
  cases happly : builder.apply options directive with
  | ok next => exact grows_act hlinking (apply_eq_ok_iff.mp happly)
  | error error => exact .refl builder

theorem grows_attemptAll {directives : List Directive}
    (hlinking : ∀ directive ∈ directives, directive.action.isLinking = true) :
    builder.Grows (builder.attemptAll options directives) := by
  induction directives generalizing builder with
  | nil => exact .refl builder
  | cons directive rest ih =>
      have hrest : ∀ other ∈ rest, other.action.isLinking = true :=
        fun other hother => hlinking other (List.mem_cons_of_mem _ hother)
      exact (grows_attempt (hlinking directive List.mem_cons_self)).trans (ih hrest)

/-! ### Actions that are done -/

/-- An exit is there, and so is the room that it should lead to. -/
def Opened (builder : Builder) (exit source target : Label) : Prop :=
  builder.grid.hasRoom target = true ∧ (builder.grid.exit? source exit).isSome = true

/-- What a link action asks for is there.  An exit without a registered reverse has no way back
that could be there. -/
def Done (builder : Builder) : Action → Prop
  | .createRoom room => builder.grid.hasRoom room = true
  | .createExit exit source target => builder.Opened exit source target
  | .createReverseExit exit source target =>
    ∀ back, builder.context.reverses.find? exit = some back → builder.Opened back target source
  | _ => False

theorem Opened.grows {exit source target : Label} (h : builder.Opened exit source target)
    (hgrows : builder.Grows next) : next.Opened exit source target :=
  ⟨hgrows.room target h.1, hgrows.exit source exit h.2⟩

theorem Done.grows {action : Action} (h : builder.Done action) (hgrows : builder.Grows next) :
    next.Done action := by
  cases action with
  | createRoom room => exact hgrows.room room h
  | createExit exit source target => exact Opened.grows h hgrows
  | createReverseExit exit source target =>
      intro back hback
      rw [hgrows.context] at hback
      exact (h back hback).grows hgrows
  | nop | error | warning | attrBase | exitAlias | reverse | setReference | setFlags | bufferRoom
  | bufferExit => exact h

/-- Between rooms that are there, an exit is open after an attempt to open it: it is new, or it
was there before. -/
theorem opened_of_createExit (options : BuildOptions) (label : Label) {source target : Label}
    (hsource : builder.grid.hasRoom source = true) (htarget : builder.grid.hasRoom target = true) :
    (∀ next, builder.createExit options label source target = .ok next →
      next.Opened label source target) ∧
    (∀ cause, builder.createExit options label source target = .error cause →
      builder.Opened label source target) := by
  constructor
  · intro next h
    obtain ⟨room, hroom, -, -, rfl⟩ := createExit_eq_ok_iff.mp h
    refine ⟨by simpa using htarget, ?_⟩
    exact Grid.isSome_exit?_added (builder.newExit options label source target) hroom
  · intro cause h
    rcases createExit_eq_error_iff.mp h with ⟨hnone, -⟩ | ⟨-, hnone, -⟩ | ⟨-, hexit, -⟩
    · rw [hsource] at hnone
      cases hnone
    · rw [htarget] at hnone
      cases hnone
    · exact ⟨htarget, hexit⟩

/-- An attempt at a link action whose rooms are there leaves it done. -/
theorem done_attempt {directive : Directive} (hlinking : directive.action.isLinking = true)
    (hjoined : ∀ room ∈ directive.action.joined, builder.grid.hasRoom room = true) :
    (builder.attempt options directive).Done directive.action := by
  obtain ⟨location, action⟩ := directive
  unfold attempt apply
  cases action with
  | createRoom room =>
      cases hroom : builder.grid.hasRoom room with
      | true => simpa [act, createRoom_of_hasRoom hroom, Done] using hroom
      | false => simp [act, createRoom_of_not_hasRoom hroom, Done, newRoom]
  | createExit exit source target =>
      have hopened := opened_of_createExit options exit
        (hjoined source (by simp [Action.joined])) (hjoined target (by simp [Action.joined]))
      simp only [act]
      cases hopen : builder.createExit options exit source target with
      | ok next => exact hopened.1 next hopen
      | error cause => exact hopened.2 cause hopen
  | createReverseExit exit source target =>
      simp only [act]
      cases hreverse : builder.context.reverses.find? exit with
      | none =>
          simp only [createReverseExit, hreverse]
          intro back hback
          rw [hreverse] at hback
          cases hback
      | some known =>
          have hopened := opened_of_createExit options known
            (hjoined target (by simp [Action.joined])) (hjoined source (by simp [Action.joined]))
          simp only [createReverseExit, hreverse]
          cases hopen : builder.createExit options known target source with
          | ok next =>
              intro back hback
              rw [(grows_createExit hopen).context, hreverse] at hback
              cases hback
              exact hopened.1 next hopen
          | error cause =>
              intro back hback
              rw [hreverse] at hback
              cases hback
              exact hopened.2 cause hopen
  | nop | error | warning | attrBase | exitAlias | reverse | setReference | setFlags | bufferRoom
  | bufferExit => cases hlinking

/-! ### Doing it again -/

theorem createExit_of_opened {label source target : Label}
    (h : builder.Opened label source target) :
    builder.createExit options label source target = .error (.duplicateExit label source) :=
  createExit_eq_error_iff.mpr (Or.inr (Or.inr ⟨h.1, h.2, rfl⟩))

/-- How a link action that is done ends when it is done again. -/
inductive Again (builder : Builder) : Action → Except Cause Builder → Prop
  | createRoom (room : Label) : Again builder (.createRoom room) (.ok builder)
  | createExit (exit source target : Label) :
      Again builder (.createExit exit source target) (.error (.duplicateExit exit source))
  | missingReverse {exit : Label} (source target : Label)
      (hreverse : builder.context.reverses.find? exit = none) :
      Again builder (.createReverseExit exit source target) (.error (.missingReverse exit))
  | createReverseExit {exit back : Label} (source target : Label)
      (hreverse : builder.context.reverses.find? exit = some back) :
      Again builder (.createReverseExit exit source target) (.error (.duplicateExit back target))

theorem again_of_done (options : BuildOptions) {action : Action} (h : builder.Done action)
    (location : Location) :
    builder.Again action (builder.act options location action) := by
  cases action with
  | createRoom room =>
      rw [act, createRoom_of_hasRoom h]
      exact .createRoom room
  | createExit exit source target =>
      rw [act, createExit_of_opened h]
      exact .createExit exit source target
  | createReverseExit exit source target =>
      cases hreverse : builder.context.reverses.find? exit with
      | none =>
          simp only [act, createReverseExit, hreverse]
          exact .missingReverse source target hreverse
      | some back =>
          simp only [act, createReverseExit, hreverse, createExit_of_opened (h back hreverse)]
          exact .createReverseExit source target hreverse
  | nop | error | warning | attrBase | exitAlias | reverse | setReference | setFlags | bufferRoom
  | bufferExit => exact h.elim

theorem attempt_of_done {directive : Directive} (h : builder.Done directive.action) :
    builder.attempt options directive = builder := by
  obtain ⟨location, action⟩ := directive
  have hagain := again_of_done options h location
  unfold attempt apply
  cases hact : builder.act options location action with
  | error cause => rfl
  | ok next =>
      simp only [hact] at hagain
      cases hagain
      rfl

theorem attemptAll_of_done {directives : List Directive}
    (h : ∀ directive ∈ directives, builder.Done directive.action) :
    builder.attemptAll options directives = builder := by
  induction directives with
  | nil => rfl
  | cons directive rest ih =>
      rw [attemptAll, List.foldl_cons, attempt_of_done (h directive List.mem_cons_self)]
      exact ih fun other hother => h other (List.mem_cons_of_mem _ hother)

/-! ### Lines -/

/-- After link actions that create their rooms first, all of them are done.  The induction is on
the end of the list: the last action finds its rooms created by those before it. -/
theorem done_attemptAll {directives : List Directive}
    (hlinking : ∀ directive ∈ directives, directive.action.isLinking = true)
    (hfirst : RoomsFirst (directives.map (·.action))) :
    ∀ directive ∈ directives, (builder.attemptAll options directives).Done directive.action := by
  induction directives using List.reverseRecOn with
  | nil =>
      intro directive hmem
      cases hmem
  | append_singleton directives last ih =>
      have hlast : last.action.isLinking = true := hlinking last (by simp)
      have hjoined : ∀ room ∈ last.action.joined,
          .createRoom room ∈ directives.map (·.action) :=
        hfirst _ last.action [] (by simp)
      have hearlier := ih (fun directive hmem => hlinking directive (by simp [hmem]))
        (RoomsFirst.of_append (by simpa using hfirst))
      have hrooms : ∀ room ∈ last.action.joined,
          (builder.attemptAll options directives).grid.hasRoom room = true := by
        intro room hroom
        obtain ⟨creating, hmem, haction⟩ := List.mem_map.mp (hjoined room hroom)
        have hdone := hearlier creating hmem
        rwa [haction] at hdone
      intro directive hmem
      rw [attemptAll, List.foldl_append]
      rcases List.mem_append.mp hmem with hold | hnew
      · exact (hearlier directive hold).grows (grows_attempt hlast)
      · rw [List.mem_singleton.mp hnew]
        exact done_attempt hlast hrooms

/-- Where link actions succeed one after another, every exit that is to lead back has a
reverse. -/
theorem exists_reverse_of_applyAll {directives : List Directive}
    (hlinking : ∀ directive ∈ directives, directive.action.isLinking = true)
    (hrun : builder.applyAll options directives = .ok next) {directive : Directive}
    (hmem : directive ∈ directives) {exit source target : Label}
    (haction : directive.action = .createReverseExit exit source target) :
    ∃ back, builder.context.reverses.find? exit = some back := by
  induction directives generalizing builder with
  | nil => cases hmem
  | cons head rest ih =>
      cases happly : builder.apply options head with
      | error error =>
          simp only [applyAll, happly] at hrun
          cases hrun
      | ok reached =>
          simp only [applyAll, happly] at hrun
          have hact := apply_eq_ok_iff.mp happly
          rcases List.mem_cons.mp hmem with rfl | hrest
          · rw [haction] at hact
            obtain ⟨back, hback, -⟩ := createReverseExit_eq_ok_iff.mp hact
            exact ⟨back, hback⟩
          · obtain ⟨back, hback⟩ := ih
              (fun other hother => hlinking other (List.mem_cons_of_mem _ hother)) hrun hrest
            rw [(grows_act (hlinking head List.mem_cons_self) hact).context] at hback
            exact ⟨back, hback⟩

end Builder

/-- What a line that is read as a link asks for outside of blocks. -/
theorem Classifier.exists_linkActions (lastLiteral : Option Nat) (number : Nat) {text : String}
    (hlink : (Line.Form.link.read? (Text.trim text.toList)).isSome = true) :
    ∃ exit first hops, (classify ⟨.outside, lastLiteral⟩ number text).2 =
      linkActions exit first hops := by
  cases htrim : Text.trim text.toList with
  | nil =>
      rw [htrim] at hlink
      cases hlink
  | cons c rest =>
      rw [htrim, Line.Form.read?, Option.isSome_map] at hlink
      have hquote : c = '"' := by
        by_contra hc
        simp [Line.link?, hc] at hlink
      subst hquote
      obtain ⟨⟨exit, first, hops⟩, hfound⟩ := Option.isSome_iff_exists.mp hlink
      exact ⟨_, _, _, congrArg Prod.snd (classify_of_link? lastLiteral number htrim hfound)⟩

namespace Builder

/-- Whatever a builder has been given before: when the directives of a link line are applied twice,
those that fail being skipped, the second round leaves the builder as the first one left it.  If
none of them fails the first time, the second time every room is there already and every exit is
refused as a duplicate. -/
theorem relinking_changes_nothing (options : BuildOptions) (builder : Builder)
    (lastLiteral : Option Nat) (file : String) (number : Nat) {text : String}
    (hlink : (Line.Form.link.read? (Text.trim text.toList)).isSome = true) :
    let directives := (Classifier.classify ⟨.outside, lastLiteral⟩ number text).2.map
      (Directive.mk ⟨file, number⟩)
    let once := builder.attemptAll options directives
    once.attemptAll options directives = once ∧
    ((∀ error, builder.applyAll options directives ≠ .error error) →
      ∀ before directive after, directives = before ++ directive :: after →
        once.attemptAll options before = once ∧
        ((∃ room, directive.action = .createRoom room ∧
            once.apply options directive = .ok once) ∨
          (∃ exit source target, directive.action = .createExit exit source target ∧
            once.apply options directive =
              .error ⟨.duplicateExit exit source, some ⟨file, number⟩⟩) ∨
          (∃ exit back source target, directive.action = .createReverseExit exit source target ∧
            builder.context.reverses.find? exit = some back ∧
            once.apply options directive =
              .error ⟨.duplicateExit back target, some ⟨file, number⟩⟩))) := by
  intro directives once
  obtain ⟨exit, first, hops, hactions⟩ := Classifier.exists_linkActions lastLiteral number hlink
  have hmap : directives.map (·.action) = linkActions exit first hops := by
    simp [directives, hactions, Function.comp_def]
  have hlinking : ∀ directive ∈ directives, directive.action.isLinking = true := by
    intro directive hmem
    exact isLinking_linkActions exit first hops _ (hmap ▸ List.mem_map_of_mem hmem)
  have hdone : ∀ directive ∈ directives, once.Done directive.action :=
    done_attemptAll hlinking (hmap ▸ roomsFirst_linkActions exit first hops)
  have hcontext : once.context = builder.context := (grows_attemptAll hlinking).context
  refine ⟨attemptAll_of_done hdone, ?_⟩
  intro hsuccess before directive after hsplit
  have hmem : directive ∈ directives := by simp [hsplit]
  have hlocation : directive.location = ⟨file, number⟩ := by
    obtain ⟨action, -, rfl⟩ := List.mem_map.mp hmem
    rfl
  refine ⟨attemptAll_of_done fun earlier hearlier => hdone earlier (by simp [hsplit, hearlier]), ?_⟩
  obtain ⟨location, action⟩ := directive
  have hagain := again_of_done options (hdone _ hmem) location
  generalize hresult : once.act options location action = result at hagain
  have herror : ∀ cause, result = .error cause →
      once.apply options ⟨location, action⟩ = .error ⟨cause, some ⟨file, number⟩⟩ := by
    rintro cause rfl
    exact apply_eq_error_iff.mpr ⟨hresult, congrArg some hlocation.symm⟩
  cases hagain with
  | createRoom room => exact Or.inl ⟨room, rfl, apply_eq_ok_iff.mpr hresult⟩
  | createExit exit source target =>
      exact Or.inr (Or.inl ⟨exit, source, target, rfl, herror _ rfl⟩)
  | missingReverse source target hreverse =>
      -- then the first round would have failed here too
      cases hrun : builder.applyAll options directives with
      | error error => exact absurd hrun (hsuccess error)
      | ok next =>
          obtain ⟨back, hback⟩ := exists_reverse_of_applyAll hlinking hrun hmem rfl
          rw [hcontext, hback] at hreverse
          cases hreverse
  | createReverseExit source target hreverse =>
      rw [hcontext] at hreverse
      exact Or.inr (Or.inr ⟨_, _, source, target, rfl, hreverse, herror _ rfl⟩)

/-- A line with a way back and a loop.  The first time it opens four exits; the second time it
changes nothing, and the way back is refused. -/
theorem relinking_changes_nothing_sample :
    let text := "\"n\" : \"A\" <-> \"B\" -> \"C\" -> \"C\""
    let builder := attemptAll {} {} [⟨⟨"manor.qb", 1⟩, .reverse ⟨"\"n\""⟩ ⟨"\"s\""⟩⟩]
    let directives := (Classifier.classify ⟨.outside, none⟩ 2 text).2.map
      (Directive.mk ⟨"manor.qb", 2⟩)
    let once := builder.attemptAll {} directives
    (Line.Form.link.read? (Text.trim text.toList)).isSome = true ∧
      (∀ error, builder.applyAll {} directives ≠ .error error) ∧
      once.grid.edges.length = 4 ∧ once.attemptAll {} directives = once ∧
      ∃ back, builder.context.reverses.find? ⟨"\"n\""⟩ = some back ∧
        once.apply {} ⟨⟨"manor.qb", 2⟩, .createReverseExit ⟨"\"n\""⟩ ⟨"\"A\""⟩ ⟨"\"B\""⟩⟩ =
          .error ⟨.duplicateExit back ⟨"\"B\""⟩, some ⟨"manor.qb", 2⟩⟩ := by
  intro text builder directives once
  have hlink : (Line.Form.link.read? (Text.trim text.toList)).isSome = true := by decide +kernel
  have hfour : (builder.applyAll {} directives).map (·.grid.edges.length) = .ok 4 := by
    decide +kernel
  have hsuccess : ∀ error, builder.applyAll {} directives ≠ .error error := by
    intro error hfails
    rw [hfails] at hfour
    cases hfour
  have hsplit : directives = directives.take 3 ++
      ⟨⟨"manor.qb", 2⟩, .createReverseExit ⟨"\"n\""⟩ ⟨"\"A\""⟩ ⟨"\"B\""⟩⟩ :: directives.drop 4 := by
    decide +kernel
  obtain ⟨hsame, hsecond⟩ := relinking_changes_nothing {} builder none "manor.qb" 2 hlink
  refine ⟨hlink, hsuccess, by decide +kernel, hsame, ?_⟩
  obtain ⟨-, ⟨room, haction, -⟩ | ⟨exit, source, target, haction, -⟩ |
    ⟨exit, back, source, target, haction, hback, hrefused⟩⟩ := hsecond hsuccess _ _ _ hsplit
  · cases haction
  · cases haction
  · cases haction
    exact ⟨back, hback, hrefused⟩

end Builder

end Gridwright
