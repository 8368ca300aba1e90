import Gridwright.Proofs.Builder.Actions

/-!
# What has been said about the objects to come

The context of a builder is overwritten again and again.  Read against the
directives behind it, it holds what the last directive about each matter said:
`latest` picks that directive out of a list without running anything, and
`Agrees` says that a context holds nothing else.
-/

namespace Gridwright

/-- What the last directive that says something about a matter says about it. -/
def latest {α : Type} (tells : Action → Option α) (past : List Directive) : Option α :=
  (past.filterMap fun directive => tells directive.action).getLast?

@[simp] theorem latest_snoc {α : Type} (tells : Action → Option α) (past : List Directive)
    (directive : Directive) :
    latest tells (past ++ [directive]) = (tells directive.action).or (latest tells past) := by
  cases htells : tells directive.action with
  | none => simp [latest, htells]
  | some value => simp [latest, htells]

/-! ### Matters -/

namespace Action

def attrBase? : Action → Option String
  | .attrBase path => some path
  | _ => none

def aliasOf? (exit : Label) : Action → Option String
  | .exitAlias other names => if other = exit then some names else none
  | _ => none

/-- The way back that an action registers for an exit. -/
def reverseOf? (options : BuildOptions) (exit : Label) : Action → Option Label
  | .reverse first back =>
    if first = exit then some back
    else if options.bidirectionalReverse = true ∧ back = exit then some first
    else none
  | _ => none

def reference? (kind : ObjectKind) (slot : Slot) : Action → Option (Option Reference)
  | .setReference other place value => if other = kind ∧ place = slot then some value else none
  | _ => none

def flags? (kind : ObjectKind) : Action → Option (Option String)
  | .setFlags other value => if other = kind then some value else none
  | _ => none

end Action

/-- An attribute path as it is kept: trimmed, and the default one if it is blank. -/
def effectiveBase (path : String) : String :=
  if (Text.trim path.toList).isEmpty then defaultAttrBase
  else String.ofList (Text.trim path.toList)

namespace Declared

/-- The attribute path in force behind some directives: the last one given, or the
default if there is none. -/
def attrBase (past : List Directive) : String :=
  ((latest Action.attrBase? past).map effectiveBase).getD defaultAttrBase

def reference (kind : ObjectKind) (slot : Slot) (past : List Directive) : Option Reference :=
  (latest (Action.reference? kind slot) past).join

def flags (kind : ObjectKind) (past : List Directive) : Option String :=
  (latest (Action.flags? kind) past).join

end Declared

/-! ### Contexts -/

/-- A context holds what some directives said last about every matter. -/
structure Agrees (options : BuildOptions) (past : List Directive) (context : Context) :
    Prop where
  attrBase : context.attrBase = Declared.attrBase past
  aliases : ∀ exit, context.aliases.find? exit = latest (Action.aliasOf? exit) past
  reverses : ∀ exit, context.reverses.find? exit = latest (Action.reverseOf? options exit) past
  reference : ∀ kind slot, (context.traits kind).reference slot = Declared.reference kind slot past
  flags : ∀ kind, (context.traits kind).flags = Declared.flags kind past

theorem agrees_fresh (options : BuildOptions) : Agrees options [] {} where
  attrBase := rfl
  aliases := fun _ => rfl
  reverses := fun _ => rfl
  reference := by
    intro kind slot
    cases kind <;> cases slot <;> rfl
  flags := by
    intro kind
    cases kind <;> rfl

/-! ### Steps -/

/-- The context after an action that succeeds. -/
def Context.after (options : BuildOptions) (context : Context) : Action → Context
  | .attrBase path => { context with attrBase := effectiveBase path }
  | .exitAlias exit names => { context with aliases := context.aliases.insert exit names }
  | .reverse exit back =>
    { context with
      reverses :=
        let once := context.reverses.insert exit back
        if options.bidirectionalReverse then once.insert back exit else once }
  | .setReference kind slot value => context.updateTraits kind (·.setReference slot value)
  | .setFlags kind value => context.updateTraits kind fun traits => { traits with flags := value }
  | _ => context

/-- Every action that succeeds changes the context as it says. -/
theorem Builder.context_act {options : BuildOptions} {builder next : Builder}
    {location : Location} {action : Action}
    (h : builder.act options location action = .ok next) :
    next.context = builder.context.after options action := by
  cases action with
  | error message => cases h
  | nop | warning | attrBase | setReference | setFlags =>
      cases h
      rfl
  | exitAlias exit names =>
      cases h
      exact context_setAlias location exit names
  | reverse exit back =>
      cases h
      exact context_setReverses location exit back
  | createRoom room =>
      cases h
      exact context_createRoom room
  | createExit exit source target =>
      obtain ⟨room, -, -, -, rfl⟩ := createExit_eq_ok_iff.mp h
      rfl
  | createReverseExit exit source target =>
      obtain ⟨back, -, hexit⟩ := createReverseExit_eq_ok_iff.mp h
      obtain ⟨room, -, -, -, rfl⟩ := createExit_eq_ok_iff.mp hexit
      rfl
  | bufferRoom room text =>
      obtain ⟨grid, rfl, -⟩ := bufferRoom_eq_ok_iff.mp h
      rfl
  | bufferExit room exit text =>
      obtain ⟨grid, rfl, -⟩ := bufferExit_eq_ok_iff.mp h
      rfl

namespace Context

variable (options : BuildOptions) (context : Context) (action : Action)

theorem aliases_after (exit : Label) :
    (context.after options action).aliases.find? exit =
      (action.aliasOf? exit).or (context.aliases.find? exit) := by
  cases action with
  | exitAlias other names =>
      by_cases h : other = exit
      · simp [after, Action.aliasOf?, OrderedMap.find?_insert, h]
      · have hne : exit ≠ other := fun heq => h heq.symm
        simp [after, Action.aliasOf?, OrderedMap.find?_insert, h, hne]
  | setReference kind | setFlags kind => cases kind <;> rfl
  | _ => rfl

theorem reverses_after (exit : Label) :
    (context.after options action).reverses.find? exit =
      (action.reverseOf? options exit).or (context.reverses.find? exit) := by
  cases action with
  | reverse first back =>
      cases hboth : options.bidirectionalReverse with
      | false =>
          by_cases hfirst : first = exit
          · simp [after, Action.reverseOf?, OrderedMap.find?_insert, hboth, hfirst]
          · have hne : exit ≠ first := fun heq => hfirst heq.symm
            simp [after, Action.reverseOf?, OrderedMap.find?_insert, hboth, hfirst, hne]
      | true =>
          by_cases hfirst : first = exit
          · by_cases hback : exit = back
            · simp [after, Action.reverseOf?, OrderedMap.find?_insert, hboth, hfirst, hback]
            · simp [after, Action.reverseOf?, OrderedMap.find?_insert, hboth, hfirst, hback]
          · have hne : exit ≠ first := fun heq => hfirst heq.symm
            by_cases hback : back = exit
            · simp [after, Action.reverseOf?, OrderedMap.find?_insert, hboth, hfirst, hback]
            · have hne' : exit ≠ back := fun heq => hback heq.symm
              simp [after, Action.reverseOf?, OrderedMap.find?_insert, hboth, hfirst, hback,
                hne, hne']
  | setReference kind | setFlags kind => cases kind <;> rfl
  | _ => rfl

theorem reference_after (kind : ObjectKind) (slot : Slot) :
    ((context.after options action).traits kind).reference slot =
      (action.reference? kind slot).getD ((context.traits kind).reference slot) := by
  cases action with
  | setReference other place value =>
      simp only [after, traits_updateTraits, Action.reference?]
      by_cases hkind : kind = other
      · by_cases hslot : slot = place
        · simp [hkind, hslot, Traits.reference_setReference]
        · have hne : ¬ place = slot := fun heq => hslot heq.symm
          simp [hkind, hslot, hne, Traits.reference_setReference]
      · have hne : ¬ other = kind := fun heq => hkind heq.symm
        simp [hkind, hne]
  | setFlags other value =>
      simp only [after, traits_updateTraits, Action.reference?]
      split
      · cases slot <;> rfl
      · rfl
  | _ => cases kind <;> rfl

theorem flags_after (kind : ObjectKind) :
    ((context.after options action).traits kind).flags =
      (action.flags? kind).getD (context.traits kind).flags := by
  cases action with
  | setFlags other value =>
      simp only [after, traits_updateTraits, Action.flags?]
      by_cases hkind : kind = other
      · simp [hkind]
      · have hne : ¬ other = kind := fun heq => hkind heq.symm
        simp [hkind, hne]
  | setReference other place value =>
      simp only [after, traits_updateTraits, Action.flags?]
      split
      · cases place <;> rfl
      · rfl
  | _ => cases kind <;> rfl

theorem attrBase_after :
    (context.after options action).attrBase =
      (action.attrBase?.map effectiveBase).getD context.attrBase := by
  cases action with
  | setReference kind | setFlags kind => cases kind <;> rfl
  | _ => rfl

end Context

theorem Agrees.after {options : BuildOptions} {past : List Directive} {context : Context}
    (h : Agrees options past context) (directive : Directive) :
    Agrees options (past ++ [directive]) (context.after options directive.action) where
  attrBase := by
    rw [Context.attrBase_after, h.attrBase, Declared.attrBase, Declared.attrBase, latest_snoc]
    cases directive.action.attrBase? <;> rfl
  aliases := by
    intro exit
    rw [Context.aliases_after, h.aliases, latest_snoc]
  reverses := by
    intro exit
    rw [Context.reverses_after, h.reverses, latest_snoc]
  reference := by
    intro kind slot
    rw [Context.reference_after, h.reference, Declared.reference, Declared.reference, latest_snoc]
    cases directive.action.reference? kind slot <;> rfl
  flags := by
    intro kind
    rw [Context.flags_after, h.flags, Declared.flags, Declared.flags, latest_snoc]
    cases directive.action.flags? kind <;> rfl

end Gridwright
