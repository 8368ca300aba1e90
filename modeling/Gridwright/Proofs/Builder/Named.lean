import Gridwright.Proofs.Builder.Declared

/-!
# Labels that are named as parents and zones

A pending table is written by many operations, and most of them only change what is known about
a label that is there.  A label gets into the table in one way: a directive names it as a parent
or as a zone.  So the keys of the table are the labels that the directives name, in the order in
which they are named first (`keys_pending_of_applyAll`).
-/

namespace Gridwright

/-! ### Reading a list of directives -/

/-- The label that an action names in a slot. -/
def Action.named? (slot : Slot) : Action → Option Label
  | .setReference _ place value => if place = slot then value.bind (·.target?) else none
  | _ => none

theorem Action.named?_eq_some_iff {slot : Slot} {action : Action} {label : Label} :
    action.named? slot = some label ↔
      ∃ kind, action = .setReference kind slot (some (.label label)) := by
  constructor
  · intro h
    cases action with
    | setReference kind place value =>
        simp only [named?, Option.ite_none_right_eq_some] at h
        obtain ⟨rfl, hvalue⟩ := h
        obtain ⟨reference, rfl, htarget⟩ := Option.bind_eq_some_iff.mp hvalue
        cases reference with
        | dbref text => cases htarget
        | label target =>
            cases htarget
            exact ⟨kind, rfl⟩
    | _ => cases h
  · rintro ⟨kind, rfl⟩
    simp [named?, Reference.target?]

/-- A list of labels in which one more label is noted, if there is one and it is new. -/
def noted (labels : List Label) : Option Label → List Label
  | none => labels
  | some label => if label ∈ labels then labels else labels ++ [label]

namespace Declared

/-- The labels that directives name in a slot, in the order in which they are named first. -/
def named (slot : Slot) (directives : List Directive) : List Label :=
  (directives.filterMap (·.action.named? slot)).eraseDups

theorem mem_named_iff {slot : Slot} {directives : List Directive} {label : Label} :
    label ∈ named slot directives ↔ ∃ directive ∈ directives, ∃ kind,
      directive.action = .setReference kind slot (some (.label label)) := by
  simp only [named, List.mem_eraseDups, List.mem_filterMap, Action.named?_eq_some_iff]

theorem named_snoc (slot : Slot) (directives : List Directive) (directive : Directive) :
    named slot (directives ++ [directive]) =
      noted (named slot directives) (directive.action.named? slot) := by
  unfold named
  rw [List.filterMap_append]
  cases hnamed : directive.action.named? slot with
  | none => simp [hnamed, noted]
  | some label =>
      have hlast : [directive].filterMap (·.action.named? slot) = [label] := by simp [hnamed]
      rw [hlast, eraseDups_concat]
      rfl

end Declared

/-! ### Pending tables -/

namespace Grid

variable {grid : Grid}

theorem keys_resolveIn (table : PendingTable) (label : Label) :
    (resolveIn table label).keys = table.keys := by
  unfold resolveIn
  split
  · rename_i hknown
    rw [OrderedMap.keys_insert, if_pos (OrderedMap.contains_iff.mp hknown)]
  · rfl

/-- Tracking a label notes it in the table of its slot. -/
theorem keys_pending_track (slot other : Slot) (attrBase : String) (label : Label) :
    ((grid.track slot attrBase label).pending other).keys =
      noted (grid.pending other).keys (if slot = other then some label else none) := by
  unfold track
  rw [pending_setPending]
  by_cases hslot : slot = other
  · subst hslot
    rw [if_pos rfl, if_pos rfl]
    by_cases hroom : grid.hasRoom label = true
    · rw [if_pos hroom, OrderedMap.keys_insert]
      rfl
    · rw [if_neg hroom]
      unfold OrderedMap.insertNew
      split
      · rename_i hknown
        rw [noted, if_pos (OrderedMap.contains_iff.mp hknown)]
      · rw [OrderedMap.keys_insert]
        rfl
  · rw [if_neg hslot, if_neg fun heq => hslot heq.symm]
    rfl

theorem keys_pending_appendPlaceholder? {label : Label} {text : String} {next : Grid}
    (h : grid.appendPlaceholder? label text = some next) (slot : Slot) :
    (next.pending slot).keys = (grid.pending slot).keys := by
  obtain ⟨place, held, hheld, -, rfl⟩ := appendPlaceholder?_eq_some_iff.mp h
  rw [pending_setPending]
  split
  · rename_i hslot
    have hknown := OrderedMap.contains_of_find? (placeholderIn?_eq_some_iff.mp hheld)
    rw [OrderedMap.keys_insert, if_pos (OrderedMap.contains_iff.mp hknown), hslot]
  · rfl

end Grid

/-! ### Builders -/

namespace Builder

variable {options : BuildOptions} {builder next : Builder}

theorem keys_pending_setReference (kind : ObjectKind) (place slot : Slot)
    (value : Option Reference) :
    ((builder.setReference kind place value).grid.pending slot).keys =
      noted (builder.grid.pending slot).keys
        (Action.named? slot (.setReference kind place value)) := by
  simp only [setReference, Action.named?]
  cases value.bind (·.target?) with
  | none =>
      rw [ite_self]
      rfl
  | some label => exact Grid.keys_pending_track place slot _ label

theorem keys_pending_createRoom (slot : Slot) (label : Label) :
    ((builder.createRoom label).grid.pending slot).keys = (builder.grid.pending slot).keys := by
  cases hroom : builder.grid.hasRoom label with
  | true => rw [createRoom_of_hasRoom hroom]
  | false =>
      rw [createRoom_of_not_hasRoom hroom]
      simp only [Grid.pending_withRoom, Grid.pending_resolvePending, Grid.keys_resolveIn]

/-- Every action that succeeds notes the label that it names, and no other. -/
theorem keys_pending_act {location : Location} {action : Action}
    (hnext : builder.act options location action = .ok next) (slot : Slot) :
    (next.grid.pending slot).keys =
      noted (builder.grid.pending slot).keys (action.named? slot) := by
  cases action with
  | error message => cases hnext
  | nop | warning | attrBase | setFlags =>
      cases hnext
      rfl
  | exitAlias exit names =>
      cases hnext
      rw [grid_setAlias]
      rfl
  | reverse exit back =>
      cases hnext
      rw [grid_setReverses]
      rfl
  | setReference kind place value =>
      cases hnext
      exact keys_pending_setReference kind place slot value
  | createRoom label =>
      cases hnext
      exact keys_pending_createRoom slot label
  | createExit exit source target =>
      obtain ⟨room, -, -, -, rfl⟩ := createExit_eq_ok_iff.mp hnext
      rw [Grid.pending_withExit]
      rfl
  | createReverseExit exit source target =>
      obtain ⟨back, -, hopen⟩ := createReverseExit_eq_ok_iff.mp hnext
      obtain ⟨room, -, -, -, rfl⟩ := createExit_eq_ok_iff.mp hopen
      rw [Grid.pending_withExit]
      rfl
  | bufferRoom label text =>
      obtain ⟨grid, rfl, happend | ⟨-, happend⟩⟩ := bufferRoom_eq_ok_iff.mp hnext
      · obtain ⟨-, rfl⟩ := Grid.appendRoom?_eq_some_iff.mp happend
        rw [Grid.pending_updateRoom]
        rfl
      · exact Grid.keys_pending_appendPlaceholder? happend slot
  | bufferExit room exit text =>
      obtain ⟨grid, rfl, happend⟩ := bufferExit_eq_ok_iff.mp hnext
      obtain ⟨-, rfl⟩ := Grid.appendExit?_eq_some_iff.mp happend
      rw [Grid.pending_updateRoom]
      rfl

/-- After a run that succeeds, a pending table holds the labels that the directives name. -/
theorem keys_pending_of_applyAll {directives : List Directive}
    (hrun : applyAll options {} directives = .ok builder) (slot : Slot) :
    (builder.grid.pending slot).keys = Declared.named slot directives := by
  refine applyAll_induction
    (motive := fun directives builder =>
      (builder.grid.pending slot).keys = Declared.named slot directives) ?_ ?_ hrun
  · cases slot <;> rfl
  · intro directives builder directive next h hnext
    rw [keys_pending_act hnext, h, Declared.named_snoc]

end Builder

end Gridwright
