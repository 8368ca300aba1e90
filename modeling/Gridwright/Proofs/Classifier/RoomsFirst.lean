import Gridwright.Classifier
import Mathlib.Data.List.Induction

/-!
# Links create their rooms before their exits

A link line asks for a room before it asks for an exit that leaves or enters it, and
no other line asks for an exit.  So in the directives of any sources every exit stands
behind the creation of both its rooms.
-/

namespace Gridwright

/-- The rooms that an action joins by an exit. -/
def Action.joined : Action → List Label
  | .createExit _ source target | .createReverseExit _ source target => [source, target]
  | _ => []

/-- Every action that joins two rooms stands behind those that create them. -/
def RoomsFirst (actions : List Action) : Prop :=
  ∀ before action after, actions = before ++ action :: after →
    ∀ room ∈ action.joined, .createRoom room ∈ before

namespace RoomsFirst

theorem nil : RoomsFirst [] := by
  intro before action after heq
  simp at heq

theorem snoc {actions : List Action} {action : Action} (h : RoomsFirst actions)
    (hjoined : ∀ room ∈ action.joined, .createRoom room ∈ actions) :
    RoomsFirst (actions ++ [action]) := by
  intro before other after heq
  rcases List.eq_nil_or_concat after with rfl | ⟨rest, last, rfl⟩
  · obtain ⟨rfl, hlast⟩ := List.append_inj' heq rfl
    cases hlast
    exact hjoined
  · rw [List.concat_eq_append, ← List.cons_append, ← List.append_assoc] at heq
    obtain ⟨rfl, -⟩ := List.append_inj' heq rfl
    exact h before other rest rfl

theorem of_append {first second : List Action} (h : RoomsFirst (first ++ second)) :
    RoomsFirst first := by
  intro before action after heq
  exact h before action (after ++ second) (by simp [heq])

theorem append {first second : List Action} (hfirst : RoomsFirst first)
    (hsecond : RoomsFirst second) : RoomsFirst (first ++ second) := by
  induction second using List.reverseRecOn with
  | nil => simpa using hfirst
  | append_singleton second action ih =>
      have hinit : RoomsFirst second := hsecond.of_append
      have hlast : ∀ room ∈ action.joined, .createRoom room ∈ second :=
        hsecond second action [] rfl
      rw [← List.append_assoc]
      exact (ih hinit).snoc fun room hroom => List.mem_append_right first (hlast room hroom)

theorem of_joined_eq_nil {actions : List Action}
    (h : ∀ action ∈ actions, action.joined = []) : RoomsFirst actions := by
  intro before action after heq room hroom
  have hmem : action ∈ actions := by simp [heq]
  rw [h action hmem] at hroom
  cases hroom

end RoomsFirst

/-! ### Lines -/

/-- A path that goes on from a room that is created keeps the order.  The induction
is on the hops, and each of them adds its room before the exits that join it. -/
theorem roomsFirst_pathActions {earlier : List Action} (exit : Label) {previous : Label}
    (hearlier : RoomsFirst earlier) (hprevious : .createRoom previous ∈ earlier)
    (hops : List Hop) : RoomsFirst (earlier ++ pathActions exit previous hops) := by
  induction hops generalizing earlier previous with
  | nil => simpa [pathActions] using hearlier
  | cons hop rest ih =>
      have hhop : Action.createRoom hop.room ∈ earlier ++ [.createRoom hop.room] := by simp
      have hjoined : ∀ room ∈ [previous, hop.room],
          Action.createRoom room ∈ earlier ++ [.createRoom hop.room] := by
        intro room hroom
        rcases List.mem_cons.mp hroom with rfl | hlast
        · exact List.mem_append_left _ hprevious
        · rw [List.mem_singleton.mp hlast]
          exact hhop
      have hroom : RoomsFirst (earlier ++ [.createRoom hop.room]) :=
        hearlier.snoc fun room hroom => by cases hroom
      have hexit : RoomsFirst (earlier ++ [.createRoom hop.room] ++
          [.createExit exit previous hop.room]) := hroom.snoc hjoined
      cases htwoWay : hop.twoWay with
      | false =>
          have hrest := ih hexit (List.mem_append_left _ hhop)
          simpa [pathActions, htwoWay] using hrest
      | true =>
          have hback : RoomsFirst (earlier ++ [.createRoom hop.room] ++
              [.createExit exit previous hop.room] ++
              [.createReverseExit exit previous hop.room]) :=
            hexit.snoc fun room hroom => List.mem_append_left _ (hjoined room hroom)
          have hrest := ih hback (List.mem_append_left _ (List.mem_append_left _ hhop))
          simpa [pathActions, htwoWay] using hrest

theorem roomsFirst_linkActions (exit first : Label) (hops : String) :
    RoomsFirst (linkActions exit first hops) := by
  have hfirst : RoomsFirst [.createRoom first] :=
    RoomsFirst.nil.snoc fun room hroom => by cases hroom
  exact roomsFirst_pathActions exit hfirst (List.mem_singleton.mpr rfl) _

namespace Classifier

theorem roomsFirst_outside {classifier next : Classifier} {line : SourceLine}
    {reading : Line.Reading} {actions : List Action}
    (h : classifier.outside line reading = some (next, actions)) : RoomsFirst actions := by
  cases reading with
  | link exit first hops =>
      cases h
      exact roomsFirst_linkActions exit first hops
  | ignored | literal => cases h
  | blank | comment | attrBase | exitAlias | reverse | reference | flags | inRoom | onExit
  | describe | endIn | endOn | anything =>
      cases h
      exact RoomsFirst.of_joined_eq_nil (by simp [Action.joined])

@[simp] theorem joined_nop : Action.nop.joined = [] := rfl

@[simp] theorem joined_warning (message : String) : (Action.warning message).joined = [] := rfl

@[simp] theorem joined_buffer (block : Block) (text : String) :
    (block.buffer text).joined = [] := by
  cases block <;> rfl

theorem roomsFirst_inside {classifier next : Classifier} {block : Block} {line : SourceLine}
    {reading : Line.Reading} {actions : List Action}
    (h : classifier.inside block line reading = some (next, actions)) : RoomsFirst actions := by
  refine RoomsFirst.of_joined_eq_nil ?_
  cases reading with
  | endIn | endOn =>
      cases block with
      | inRoom room =>
          cases h
          simp
      | onExit room exit =>
          cases h
          simp
  | blank | ignored | literal | comment | anything | attrBase | exitAlias | reverse | reference
  | flags | link | inRoom | onExit | describe =>
      cases h
      simp

theorem roomsFirst_classify (classifier : Classifier) (number : Nat) (text : String) :
    RoomsFirst (classifier.classify number text).2 := by
  unfold classify
  cases hresponse : classifier.response Line.Form.table (.of number text) with
  | none => exact RoomsFirst.nil
  | some result =>
      obtain ⟨next, actions⟩ := result
      obtain ⟨form, -, hform⟩ := List.exists_of_findSome?_eq_some hresponse
      obtain ⟨reading, -, hrespond⟩ := Option.bind_eq_some_iff.mp hform
      unfold respond at hrespond
      split at hrespond
      · exact roomsFirst_outside hrespond
      · exact roomsFirst_inside hrespond
      · cases hrespond

/-! ### Sources -/

theorem roomsFirst_directives (file : String) (lines : List String) (classifier : Classifier)
    (number : Nat) :
    RoomsFirst ((classifier.directives file number lines).map (·.action)) := by
  induction lines generalizing classifier number with
  | nil => exact RoomsFirst.nil
  | cons text rest ih =>
      have hline : ((classifier.classify number text).2.map
          (Directive.mk ⟨file, number⟩)).map (·.action) = (classifier.classify number text).2 := by
        simp [Function.comp_def]
      simp only [directives, List.map_append, hline]
      exact (classifier.roomsFirst_classify number text).append (ih _ _)

end Classifier

/-- In the directives of any sources every exit stands behind the creation of both
its rooms. -/
theorem roomsFirst_directivesOf (sources : List Source) :
    RoomsFirst ((directivesOf sources).map (·.action)) := by
  induction sources with
  | nil => exact RoomsFirst.nil
  | cons source rest ih =>
      have hsource : RoomsFirst (source.directives.map (·.action)) :=
        Classifier.roomsFirst_directives _ _ _ _
      simp only [directivesOf, List.flatMap_cons, List.map_append]
      exact hsource.append ih

end Gridwright
