import Gridwright.Proofs.Builder.Declared
import Gridwright.Proofs.Builder.Views

/-!
# Warnings about definitions that are replaced

A builder warns where it is told to, and where a directive gives an exit other names or another
way back than a directive before it did.  `Declared.warnings` reads these warnings off the list of
directives: what a directive replaces is what the directives before it said last.

A reverse that holds in both directions is written in two steps, and the second step looks at what
the first has written.  That shows where an exit is its own way back: the second step replaces
what the same directive has just registered, and warns of it (`Action.echo`).  So the warnings are
the declared ones exactly if no exit is made its own way back (`warnings_eq_declared_iff`).
-/

namespace Gridwright

/-! ### What directives tell -/

/-- What is told when the names of an exit are replaced. -/
def aliasReplaced (exit : Label) (old new : String) : String :=
  "Replacing alias definition " ++ exit.text ++ "->\"" ++ old ++ "\" with " ++
    exit.text ++ "->\"" ++ new ++ "\"."

/-- What is told when the way back of an exit is replaced. -/
def reverseReplaced (exit old new : Label) : String :=
  "Replacing reverse definition " ++ exit.text ++ "->" ++ old.text ++ " with " ++
    exit.text ++ "->" ++ new.text

/-- The exits that get a way back from a reverse, each with its way back. -/
def registered (options : BuildOptions) (exit back : Label) : List (Label × Label) :=
  if options.bidirectionalReverse = true ∧ back ≠ exit then [(exit, back), (back, exit)]
  else [(exit, back)]

/-- What an action tells, where `names` and `backs` are the names and the ways back of exits
before it. -/
def Action.tells (options : BuildOptions) (names : Label → Option String)
    (backs : Label → Option Label) : Action → List String
  | .warning message => [message]
  | .exitAlias exit new => (names exit).toList.map fun old => aliasReplaced exit old new
  | .reverse exit back =>
    (registered options exit back).flatMap fun (key, new) =>
      (backs key).toList.map fun old => reverseReplaced key old new
  | _ => []

/-- Messages about a line. -/
def warningsAt (location : Location) (messages : List String) : List Warning :=
  messages.map fun message => { location := some location, message }

namespace Declared

/-- What an action tells behind some directives. -/
def tells (options : BuildOptions) (past : List Directive) (action : Action) : List String :=
  action.tells options (fun exit => latest (Action.aliasOf? exit) past)
    fun exit => latest (Action.reverseOf? options exit) past

/-- The warnings of directives in order, each at the line of its directive. -/
def warningsOf (tell : List Directive → Action → List String) (directives : List Directive) :
    List Warning :=
  (withPast [] directives).flatMap fun (past, directive) =>
    warningsAt directive.location (tell past directive.action)

/-- The warnings that directives ask for and bring about. -/
def warnings (options : BuildOptions) (directives : List Directive) : List Warning :=
  warningsOf (tells options) directives

theorem warningsOf_snoc (tell : List Directive → Action → List String)
    (directives : List Directive) (directive : Directive) :
    warningsOf tell (directives ++ [directive]) = warningsOf tell directives ++
      warningsAt directive.location (tell directives directive.action) := by
  rw [warningsOf, withPast_snoc, List.flatMap_append, List.nil_append, List.flatMap_singleton]
  rfl

end Declared

/-- What a reverse in both directions tells about itself. -/
def Action.echo (options : BuildOptions) : Action → List String
  | .reverse exit back =>
    if options.bidirectionalReverse = true ∧ back = exit then [reverseReplaced exit exit exit]
    else []
  | _ => []

/-! ### Single directives -/

namespace Builder

variable {options : BuildOptions} {builder next : Builder}

/-- What an action tells at a builder, its echo included. -/
def told (options : BuildOptions) (builder : Builder) (action : Action) : List String :=
  action.tells options builder.context.aliases.find? builder.context.reverses.find? ++
    action.echo options

theorem warnings_setAlias (location : Location) (exit : Label) (names : String) :
    (builder.setAlias location exit names).warnings = builder.warnings ++
      warningsAt location (builder.told options (.exitAlias exit names)) := by
  simp only [setAlias, told, Action.tells, Action.echo, List.append_nil]
  cases builder.context.aliases.find? exit with
  | none => exact (List.append_nil builder.warnings).symm
  | some old => rfl

theorem warnings_setReverse (location : Location) (exit back : Label) :
    (builder.setReverse location exit back).warnings = builder.warnings ++
      warningsAt location ((builder.context.reverses.find? exit).toList.map
        fun old => reverseReplaced exit old back) := by
  unfold setReverse
  cases builder.context.reverses.find? exit with
  | none => exact (List.append_nil builder.warnings).symm
  | some old => rfl

/-- The second step of a reverse in both directions finds what the first has written if the exit
is its own way back, and what was there before otherwise. -/
theorem warnings_setReverses (location : Location) (exit back : Label) :
    (builder.setReverses options location exit back).warnings = builder.warnings ++
      warningsAt location (builder.told options (.reverse exit back)) := by
  simp only [setReverses, told, Action.tells, Action.echo, registered]
  by_cases hboth : options.bidirectionalReverse = true
  · rw [if_pos hboth, warnings_setReverse, warnings_setReverse, context_setReverse,
      List.append_assoc]
    simp only [OrderedMap.find?_insert, hboth, true_and]
    by_cases hback : back = exit
    · subst hback
      rw [if_pos rfl, if_pos rfl, if_neg fun hne => hne rfl, List.flatMap_singleton]
      simp only [warningsAt, List.map_append]
      rfl
    · rw [if_neg hback, if_neg hback, if_pos hback, List.append_nil]
      simp only [warningsAt, List.flatMap_cons, List.flatMap_nil, List.append_nil, List.map_append]
  · rw [if_neg hboth, if_neg fun h => hboth h.1, if_neg fun h => hboth h.1, List.append_nil,
      List.flatMap_singleton]
    exact warnings_setReverse location exit back

theorem warnings_createRoom (label : Label) :
    (builder.createRoom label).warnings = builder.warnings := by
  unfold createRoom
  split <;> rfl

/-- An action that succeeds puts what it tells behind the warnings that are there. -/
theorem warnings_act {location : Location} {action : Action}
    (h : builder.act options location action = .ok next) :
    next.warnings = builder.warnings ++ warningsAt location (builder.told options action) := by
  cases action with
  | error message => cases h
  | nop | attrBase | setReference | setFlags =>
      cases h
      exact (List.append_nil builder.warnings).symm
  | warning message =>
      cases h
      rfl
  | exitAlias exit names =>
      cases h
      exact warnings_setAlias location exit names
  | reverse exit back =>
      cases h
      exact warnings_setReverses location exit back
  | createRoom room =>
      cases h
      rw [warnings_createRoom]
      exact (List.append_nil builder.warnings).symm
  | createExit exit source target =>
      obtain ⟨room, -, -, -, rfl⟩ := createExit_eq_ok_iff.mp h
      exact (List.append_nil builder.warnings).symm
  | createReverseExit exit source target =>
      obtain ⟨back, -, hopen⟩ := createReverseExit_eq_ok_iff.mp h
      obtain ⟨room, -, -, -, rfl⟩ := createExit_eq_ok_iff.mp hopen
      exact (List.append_nil builder.warnings).symm
  | bufferRoom room text =>
      obtain ⟨grid, rfl, -⟩ := bufferRoom_eq_ok_iff.mp h
      exact (List.append_nil builder.warnings).symm
  | bufferExit room exit text =>
      obtain ⟨grid, rfl, -⟩ := bufferExit_eq_ok_iff.mp h
      exact (List.append_nil builder.warnings).symm

/-- A directive that is skipped has nothing to tell and says nothing about the exits to come. -/
theorem silent_of_error {location : Location} {action : Action} {cause : Cause}
    (h : builder.act options location action = .error cause) :
    builder.told options action = [] ∧ builder.context.after options action = builder.context := by
  cases action with
  | nop | warning | attrBase | exitAlias | reverse | setReference | setFlags | createRoom =>
      cases h
  | error | createExit | createReverseExit | bufferRoom | bufferExit => exact ⟨rfl, rfl⟩

theorem attempt_tells (builder : Builder) (directive : Directive) :
    (builder.attempt options directive).context =
        builder.context.after options directive.action ∧
      (builder.attempt options directive).warnings = builder.warnings ++
        warningsAt directive.location (builder.told options directive.action) := by
  unfold attempt apply
  cases hact : builder.act options directive.location directive.action with
  | ok next => exact ⟨context_act hact, warnings_act hact⟩
  | error cause =>
      rcases silent_of_error hact with ⟨htold, hcontext⟩
      exact ⟨hcontext.symm, by rw [htold]; exact (List.append_nil builder.warnings).symm⟩

/-! ### Runs -/

theorem attemptAll_snoc (directives : List Directive) (directive : Directive) :
    builder.attemptAll options (directives ++ [directive]) =
      (builder.attemptAll options directives).attempt options directive := by
  simp [attemptAll]

theorem agrees_attemptAll (options : BuildOptions) (directives : List Directive) :
    Agrees options directives (attemptAll options {} directives).context := by
  induction directives using List.reverseRecOn with
  | nil => exact agrees_fresh options
  | append_singleton directives directive ih =>
      rw [attemptAll_snoc, (attempt_tells _ directive).1]
      exact ih.after directive

/-- Where the context holds what was said last, an action replaces what was said last. -/
theorem told_of_agrees {past : List Directive} (h : Agrees options past builder.context)
    (action : Action) :
    builder.told options action = Declared.tells options past action ++ action.echo options := by
  rw [told, Declared.tells, funext h.aliases, funext h.reverses]

theorem warnings_attemptAll (options : BuildOptions) (directives : List Directive) :
    (attemptAll options {} directives).warnings = Declared.warningsOf
      (fun past action => Declared.tells options past action ++ action.echo options)
      directives := by
  induction directives using List.reverseRecOn with
  | nil => rfl
  | append_singleton directives directive ih =>
      have hagrees := agrees_attemptAll options directives
      rw [attemptAll_snoc, (attempt_tells _ directive).2, ih, Declared.warningsOf_snoc,
        told_of_agrees hagrees]

end Builder

/-! ### Echoes -/

theorem Action.echo_eq_nil_iff {options : BuildOptions} {action : Action} :
    action.echo options = [] ↔
      ∀ exit, action = .reverse exit exit → options.bidirectionalReverse = false := by
  constructor
  · rintro h exit rfl
    by_contra hboth
    rw [Bool.not_eq_false] at hboth
    rw [echo, if_pos ⟨hboth, rfl⟩] at h
    cases h
  · intro h
    cases action with
    | reverse exit back =>
        apply if_neg
        rintro ⟨hboth, rfl⟩
        rw [h back rfl] at hboth
        cases hboth
    | _ => rfl

theorem Declared.length_warningsOf_append (first second : List Directive → Action → List String)
    (directives : List Directive) :
    (warningsOf (fun past action => first past action ++ second past action) directives).length =
      (warningsOf first directives).length + (warningsOf second directives).length := by
  induction directives using List.reverseRecOn with
  | nil => rfl
  | append_singleton directives directive ih =>
      simp only [warningsOf_snoc, List.length_append, ih, warningsAt, List.length_map]
      omega

theorem Declared.warningsOf_eq_nil_iff {tell : Action → List String}
    {directives : List Directive} :
    warningsOf (fun _ => tell) directives = [] ↔
      ∀ directive ∈ directives, tell directive.action = [] := by
  induction directives using List.reverseRecOn with
  | nil => simp [warningsOf, withPast]
  | append_singleton directives directive ih =>
      rw [warningsOf_snoc, List.append_eq_nil_iff, ih, warningsAt, List.map_eq_nil_iff,
        List.forall_mem_append, List.forall_mem_singleton]

/-- What is told on top of other warnings does not show exactly if it is nothing. -/
theorem Declared.warningsOf_append_eq_iff {first : List Directive → Action → List String}
    {second : Action → List String} {directives : List Directive} :
    warningsOf (fun past action => first past action ++ second action) directives =
        warningsOf first directives ↔
      ∀ directive ∈ directives, second directive.action = [] := by
  constructor
  · intro h
    have hlength := congrArg List.length h
    rw [length_warningsOf_append first fun _ => second] at hlength
    exact warningsOf_eq_nil_iff.mp (List.eq_nil_of_length_eq_zero (by omega))
  · intro h
    induction directives using List.reverseRecOn with
    | nil => rfl
    | append_singleton directives directive ih =>
        rw [List.forall_mem_append, List.forall_mem_singleton] at h
        rw [warningsOf_snoc, warningsOf_snoc, ih h.1, h.2, List.append_nil]

/-- The warnings of a builder are those that its directives ask for and bring about by replacing
what directives before them said, exactly if no directive makes an exit its own way back in both
directions. -/
theorem Builder.warnings_eq_declared_iff (options : BuildOptions) (directives : List Directive) :
    (attemptAll options {} directives).warnings = Declared.warnings options directives ↔
      ∀ directive ∈ directives, ∀ exit, directive.action = .reverse exit exit →
        options.bidirectionalReverse = false := by
  rw [warnings_attemptAll, Declared.warnings, Declared.warningsOf_append_eq_iff]
  simp only [Action.echo_eq_nil_iff]

/-- A door that is its own way back, and nothing before it: it is reported to be replaced. -/
theorem Builder.first_reverse_replaced_by_itself :
    let door : Label := ⟨"\"door\""⟩
    let directives : List Directive := [⟨⟨"manor.qb", 1⟩, .reverse door door⟩]
    (attemptAll {} {} directives).warnings.map (·.describe) =
        ["File 'manor.qb' Line 1: Replacing reverse definition \"door\"->\"door\" with " ++
          "\"door\"->\"door\""] ∧
      Declared.warnings {} directives = [] ∧
      (attemptAll {} {} directives).warnings ≠ Declared.warnings {} directives := by
  intro door directives
  exact ⟨by decide +kernel, by decide +kernel, by decide +kernel⟩

end Gridwright
