import Gridwright.Proofs.Attribute
import Gridwright.Proofs.Builder.Coherence

/-!
# How exits are addressed

A directive names an exit of a room by its label, and the whole label is the identity of the exit.
A room finds its exits by their keys, though, and labels that are alike have the same key.
`Builder.Addresses` says that a label stands for the exit that bears it and for no other: another
exit does not keep it from being opened, and code for it goes nowhere else.  That is so exactly
if no other exit of the room has a label that is alike (`addresses_iff`).
-/

namespace Gridwright

/-- The room with code added to its exit of a label and nothing else changed. -/
def Room.appendTo (exit : Label) (text : String) (room : Room) : Room :=
  { room with
    exits := room.exits.map fun held =>
      if held.label = exit then { held with buffer := held.buffer ++ text } else held }

namespace Grid

variable {grid : Grid} {room : Room}

/-- A label finds an exit if a label of the room is alike. -/
theorem isSome_exit?_iff_alike {label exit : Label} (hroom : grid.room? label = some room) :
    (grid.exit? label exit).isSome = true ↔ ∃ held ∈ room.exits, held.label.Alike exit := by
  simp only [exit?, hroom, Option.bind_some, Room.exit?, Room.exitAt?, List.find?_isSome,
    decide_eq_true_eq, Exit.key, Label.key_eq_key_iff]

/-- Where no other label is alike, code that is added by the key goes to the label alone. -/
theorem appendToExit_eq_appendTo {exit : Label}
    (halone : ∀ held ∈ room.exits, held.label.Alike exit → held.label = exit) (text : String) :
    appendToExit exit.key text room = room.appendTo exit text := by
  simp only [appendToExit, Room.appendTo]
  refine congrArg (fun exits => { room with exits }) (List.map_congr_left ?_)
  intro held hheld
  have hiff : held.key = exit.key ↔ held.label = exit :=
    ⟨fun hkey => halone held hheld (Label.key_eq_key_iff.mp hkey), congrArg Label.key⟩
  simp only [hiff]

theorem updateRoom_congr (h : grid.Coherent) (hroom : room ∈ grid.rooms)
    {change other : Room → Room} (hchange : change room = other room) :
    grid.updateRoom room.label change = grid.updateRoom room.label other := by
  have hrooms : (grid.updateRoom room.label change).rooms =
      (grid.updateRoom room.label other).rooms := by
    refine List.map_congr_left fun found hfound => ?_
    split
    · rename_i hlabel
      rw [List.inj_on_of_nodup_map h.labels_nodup hfound hroom hlabel, hchange]
    · rfl
  simp only [updateRoom] at hrooms ⊢
  rw [hrooms]

end Grid

namespace Builder

variable {options : BuildOptions} {builder : Builder} {room : Room} {exit : Label}

/-- A label stands for the exit of a room that bears it, and for no other. -/
structure Addresses (options : BuildOptions) (builder : Builder) (room : Room) (exit : Label) :
    Prop where
  /-- Only an exit with this label keeps it from being opened. -/
  opens : ∀ location target, builder.grid.hasRoom target = true →
    builder.apply options ⟨location, .createExit exit room.label target⟩ =
      .error ⟨.duplicateExit exit room.label, some location⟩ →
    ∃ held ∈ room.exits, held.label = exit
  /-- Where no exit has this label, there is none to add code to. -/
  misses : (∀ held ∈ room.exits, held.label ≠ exit) → ∀ location text,
    builder.apply options ⟨location, .bufferExit room.label exit text⟩ =
      .error ⟨.exitMissing exit room.label, some location⟩
  /-- Code for the exit with this label is added to that exit, and all else stays. -/
  buffers : (∃ held ∈ room.exits, held.label = exit) → ∀ location text,
    builder.apply options ⟨location, .bufferExit room.label exit text⟩ =
      .ok { builder with grid := builder.grid.updateRoom room.label (Room.appendTo exit text) }

theorem apply_createExit_duplicate_iff (options : BuildOptions)
    (hroom : builder.grid.room? room.label = some room) {target : Label}
    (htarget : builder.grid.hasRoom target = true) (location : Location) :
    builder.apply options ⟨location, .createExit exit room.label target⟩ =
        .error ⟨.duplicateExit exit room.label, some location⟩ ↔
      ∃ held ∈ room.exits, held.label.Alike exit := by
  rw [apply_eq_error_iff, act, createExit_eq_error_iff, ← Grid.isSome_exit?_iff_alike hroom]
  simp [htarget]

theorem apply_bufferExit_missing (hroom : builder.grid.room? room.label = some room)
    (h : ¬ ∃ held ∈ room.exits, held.label.Alike exit) (location : Location) (text : String) :
    builder.apply options ⟨location, .bufferExit room.label exit text⟩ =
      .error ⟨.exitMissing exit room.label, some location⟩ := by
  rw [← Grid.isSome_exit?_iff_alike hroom, Bool.not_eq_true, Option.isSome_eq_false_iff,
    Option.isNone_iff_eq_none] at h
  exact apply_eq_error_iff.mpr
    ⟨bufferExit_eq_error_iff.mpr (Or.inr ⟨Grid.hasRoom_of_room? hroom, h, rfl⟩), rfl⟩

theorem apply_bufferExit_alike (hroom : builder.grid.room? room.label = some room)
    (h : ∃ held ∈ room.exits, held.label.Alike exit) (location : Location) (text : String) :
    builder.apply options ⟨location, .bufferExit room.label exit text⟩ =
      .ok { builder with
        grid := builder.grid.updateRoom room.label (Grid.appendToExit exit.key text) } := by
  have hexit := Option.isSome_iff_exists.mp ((Grid.isSome_exit?_iff_alike hroom).mpr h)
  exact apply_eq_ok_iff.mpr
    (bufferExit_eq_ok_iff.mpr ⟨_, rfl, Grid.appendExit?_eq_some_iff.mpr ⟨hexit, rfl⟩⟩)

/-- In every state that directives lead to, a label of an exit stands for that exit alone if and
only if it is not alike to the label of another exit of the room. -/
theorem addresses_iff (options : BuildOptions) (directives : List Directive) {room : Room}
    (hroom : room ∈ (attemptAll options {} directives).grid.rooms) (exit : Label) :
    Addresses options (attemptAll options {} directives) room exit ↔
      ∀ held ∈ room.exits, held.label.Alike exit → held.label = exit := by
  have hcoherent : (attemptAll options {} directives).grid.Coherent :=
    (coherent_of_applyAll (applyAll_accepted {} directives)).grid
  have hfound := hcoherent.room? hroom
  have hfits := hcoherent.fits room hroom
  constructor
  · intro haddresses held hheld halike
    have hduplicate := (apply_createExit_duplicate_iff options hfound
      (Grid.hasRoom_of_room? hfound) ⟨"", 0⟩).mpr ⟨held, hheld, halike⟩
    obtain ⟨bearer, hbearer, hlabel⟩ :=
      haddresses.opens ⟨"", 0⟩ room.label (Grid.hasRoom_of_room? hfound) hduplicate
    -- both have the key of the label, and keys are not shared
    have hkey : bearer.key = held.key :=
      (congrArg Label.key hlabel).trans (Label.key_eq_key_iff.mpr halike).symm
    rw [← List.inj_on_of_nodup_map hfits.keys_nodup hbearer hheld hkey, hlabel]
  · intro halone
    have hexists : (∃ held ∈ room.exits, held.label.Alike exit) →
        ∃ held ∈ room.exits, held.label = exit := by
      rintro ⟨held, hheld, halike⟩
      exact ⟨held, hheld, halone held hheld halike⟩
    refine ⟨?_, ?_, ?_⟩
    · intro location target htarget hduplicate
      exact hexists ((apply_createExit_duplicate_iff options hfound htarget location).mp hduplicate)
    · intro hnone location text
      refine apply_bufferExit_missing hfound (fun halike => ?_) location text
      obtain ⟨held, hheld, hlabel⟩ := hexists halike
      exact hnone held hheld hlabel
    · rintro ⟨bearer, hbearer, hlabel⟩ location text
      have halike : bearer.label.Alike exit := Label.key_eq_key_iff.mp (congrArg Label.key hlabel)
      rw [apply_bufferExit_alike hfound ⟨bearer, hbearer, halike⟩,
        Grid.updateRoom_congr hcoherent hroom (Grid.appendToExit_eq_appendTo halone text)]

/-- A room with two exits: each of them is addressed by its label. -/
theorem addresses_iff_sample :
    let hall : Label := ⟨"\"Hall\""⟩
    let north : Exit :=
      { label := ⟨"\"North Gate\""⟩, fullName := "North Gate", source := hall, target := hall }
    let south : Exit :=
      { label := ⟨"\"South_Gate\""⟩, fullName := "South_Gate", source := hall, target := hall }
    let directives : List Directive :=
      [.createRoom hall, .createExit north.label hall hall, .createExit south.label hall hall].map
        (⟨⟨"manor.qb", 1⟩, ·⟩)
    let room : Room := { label := hall, attrBase := "ROOM.", exits := [north, south] }
    room ∈ (attemptAll {} {} directives).grid.rooms ∧
      (∀ held ∈ room.exits, held.label.Alike north.label → held.label = north.label) ∧
      Addresses {} (attemptAll {} {} directives) room north.label := by
  intro hall north south directives room
  have hroom : room ∈ (attemptAll {} {} directives).grid.rooms := by decide +kernel
  have halone : ∀ held ∈ room.exits, held.label.Alike north.label → held.label = north.label := by
    decide +kernel
  exact ⟨hroom, halone, (addresses_iff {} directives hroom north.label).mpr halone⟩

/-- A room whose only exit is the North Gate.  The `North_Gate` cannot be opened beside it, and
code for the `North_Gate` goes to it. -/
theorem code_for_another_exit :
    let hall : Label := ⟨"\"Hall\""⟩
    let northGate : Label := ⟨"\"North_Gate\""⟩
    let builder := attemptAll {} {}
      ([.createRoom hall, .createExit ⟨"\"North Gate\""⟩ hall hall].map (⟨⟨"manor.qb", 1⟩, ·⟩))
    let exits (builder : Builder) := builder.grid.rooms.flatMap fun room =>
      room.exits.map fun exit => (exit.label.text, exit.buffer)
    exits builder = [("\"North Gate\"", "")] ∧
      builder.apply {} ⟨⟨"manor.qb", 2⟩, .createExit northGate hall hall⟩ =
        .error ⟨.duplicateExit northGate hall, some ⟨"manor.qb", 2⟩⟩ ∧
      (builder.apply {} ⟨⟨"manor.qb", 2⟩, .bufferExit hall northGate "@lock here=me"⟩).map exits =
        .ok [("\"North Gate\"", "@lock here=me")] := by
  intro hall northGate builder exits
  exact ⟨by decide +kernel, by decide +kernel, by decide +kernel⟩

end Builder

end Gridwright
