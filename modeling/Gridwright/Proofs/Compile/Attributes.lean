import Gridwright.Compile
import Gridwright.Proofs.Attribute
import Gridwright.Proofs.Builder.Coherence
import Gridwright.Proofs.Grid.Promotion

/-!
# Objects and the attributes they are stored under

Every object of a finished grid has a label of its own.  Its attribute is made of two parts
that the author of a source chooses, the attribute base and the label, so two objects are
stored apart unless their labels are alike, or the label of one of them begins with what the
base of the other has in addition.
-/

namespace Gridwright

/-- Where two texts of two parts agree, the first part of one of them goes on with a text that
the second part of the other begins with. -/
theorem Text.append_eq_append_iff {base key base' key' : String} :
    base ++ key = base' ++ key' ↔
      (∃ rest, base' = base ++ rest ∧ key = rest ++ key') ∨
        (∃ rest, base = base' ++ rest ∧ key' = rest ++ key) := by
  simp only [← String.toList_inj, String.toList_append, List.append_eq_append_iff]
  constructor
  · rintro (⟨rest, hbase, hkey⟩ | ⟨rest, hbase, hkey⟩)
    · exact Or.inl ⟨String.ofList rest, by simp [hbase, hkey]⟩
    · exact Or.inr ⟨String.ofList rest, by simp [hbase, hkey]⟩
  · rintro (⟨rest, hbase, hkey⟩ | ⟨rest, hbase, hkey⟩)
    · exact Or.inl ⟨rest.toList, hbase, hkey⟩
    · exact Or.inr ⟨rest.toList, hbase, hkey⟩

namespace Room

variable {room other : Room}

/-- The base of the other room goes on with a text that the room's own key begins with, and
the rest of that key is the key of the other room. -/
def RunsInto (room other : Room) : Prop :=
  ∃ rest, rest ≠ "" ∧ other.attrBase = room.attrBase ++ rest ∧
    room.label.key = rest ++ other.label.key

theorem attrName_eq_attrName_iff :
    room.attrName = other.attrName ↔
      room.attrBase = other.attrBase ∧ room.label.Alike other.label ∨
        room.RunsInto other ∨ other.RunsInto room := by
  rw [attrName, attrName, Text.append_eq_append_iff]
  constructor
  · rintro (⟨rest, hbase, hkey⟩ | ⟨rest, hbase, hkey⟩)
    · by_cases hrest : rest = ""
      · left
        rw [hrest, String.append_empty] at hbase
        rw [hrest, String.empty_append] at hkey
        exact ⟨hbase.symm, Label.key_eq_key_iff.mp hkey⟩
      · exact Or.inr (Or.inl ⟨rest, hrest, hbase, hkey⟩)
    · by_cases hrest : rest = ""
      · left
        rw [hrest, String.append_empty] at hbase
        rw [hrest, String.empty_append] at hkey
        exact ⟨hbase, Label.key_eq_key_iff.mp hkey.symm⟩
      · exact Or.inr (Or.inr ⟨rest, hrest, hbase, hkey⟩)
  · rintro (⟨hbase, halike⟩ | ⟨rest, -, hbase, hkey⟩ | ⟨rest, -, hbase, hkey⟩)
    · exact Or.inl ⟨"", by simp [hbase], by simpa using Label.key_eq_key_iff.mpr halike⟩
    · exact Or.inl ⟨rest, hbase, hkey⟩
    · exact Or.inr ⟨rest, hbase, hkey⟩

theorem not_runsInto_of_base_eq (h : room.attrBase = other.attrBase) : ¬ room.RunsInto other := by
  rintro ⟨rest, hrest, hbase, -⟩
  rw [h, ← String.toList_inj, String.toList_append, List.self_eq_append_right,
    String.toList_eq_nil_iff] at hbase
  exact hrest hbase

end Room

/-- Two objects of the grid that sources declare, stand-ins included, have different labels.
They are stored under the same attribute only if they have the same base and labels that are
alike, or if one of them runs into the other. -/
theorem stored_together_iff {options : BuildOptions} {sources : List Source} {builder : Builder}
    (hbuild : buildSources options sources = .ok builder) :
    let rooms := builder.grid.promote.1.rooms
    ∀ room ∈ rooms, ∀ other ∈ rooms, room ≠ other →
      room.label ≠ other.label ∧
        (room.attrName = other.attrName ↔
          room.attrBase = other.attrBase ∧ room.label.Alike other.label ∨
            room.RunsInto other ∨ other.RunsInto room) := by
  intro rooms room hroom other hother hne
  have hcoherent : builder.grid.Coherent := (Builder.coherent_of_applyAll hbuild).grid
  refine ⟨?_, Room.attrName_eq_attrName_iff⟩
  intro hlabel
  exact hne (List.inj_on_of_nodup_map hcoherent.nodup_labels_promote hroom hother hlabel)

/-- A room and the stand-in for its parent, which bears the same name. -/
theorem stored_together_sample :
    let source : Source :=
      ⟨"manor.qb", "ATTR BASE: AREA.\nROOM PARENT: \"Hall\"\n\"out\" : \"Hall\"2 -> \"Hall\"2\n"⟩
    let parent : Room := { label := ⟨"\"Hall\""⟩, kind := .proxy, attrBase := "AREA." }
    let out : Exit :=
      { label := ⟨"\"out\""⟩, fullName := "out", source := ⟨"\"Hall\"2"⟩, target := ⟨"\"Hall\"2"⟩ }
    let room : Room :=
      { label := out.source, attrBase := "AREA.", traits.parent := some (.label parent.label),
        exits := [out] }
    ∃ builder, buildSources {} [source] = .ok builder ∧
      builder.grid.promote.1.rooms = [room, parent] ∧ room.name = parent.name ∧
        room.attrName ≠ parent.attrName := by
  intro source parent out room
  have hseen : (buildSources {} [source]).map (·.grid.promote.1.rooms) = .ok [room, parent] := by
    decide +kernel
  obtain ⟨builder, hbuild, hrooms⟩ := Builder.exists_of_map_applyAll hseen
  refine ⟨builder, hbuild, hrooms, by decide +kernel, ?_⟩
  have hiff := (stored_together_iff hbuild room (by simp [hrooms]) parent (by simp [hrooms])
    (by decide +kernel)).2
  have hbase : room.attrBase = parent.attrBase := rfl
  rw [Ne, hiff]
  rintro (⟨-, halike⟩ | hruns | hruns)
  · exact absurd halike (by decide +kernel)
  · exact Room.not_runsInto_of_base_eq hbase hruns
  · exact Room.not_runsInto_of_base_eq hbase.symm hruns

/-- Objects with different labels under one attribute: a space beside an underscore, a refused
character beside its code, a label with and without a quote at its end, and a label that runs
into a longer base. -/
theorem different_labels_under_one_attribute :
    let source : Source :=
      ⟨"manor.qb", "ROOM ZONE: \"West.Hall\"\n" ++
        "\"out\" : \"East Gate\" -> \"East_Gate\" -> \"A\"[ -> \"A\"$5b -> \"B\"2 -> \"B\"2\"\n" ++
        "ATTR BASE: ROOM.West.\n\"out\" : \"Hall\" -> \"Hall\"\n"⟩
    ∃ builder, buildSources {} [source] = .ok builder ∧
      (∃ room ∈ builder.grid.promote.1.rooms, ∃ other ∈ builder.grid.promote.1.rooms,
        room.label ≠ other.label ∧ room.attrName = other.attrName) ∧
      builder.grid.promote.1.rooms.map (fun room => (room.label.text, room.attrName)) =
        [("\"East Gate\"", "ROOM.East_Gate"), ("\"East_Gate\"", "ROOM.East_Gate"),
          ("\"A\"[", "ROOM.A$22$5b"), ("\"A\"$5b", "ROOM.A$22$5b"),
          ("\"B\"2", "ROOM.B$222"), ("\"B\"2\"", "ROOM.B$222"),
          ("\"Hall\"", "ROOM.West.Hall"), ("\"West.Hall\"", "ROOM.West.Hall")] := by
  intro source
  exact Builder.exists_of_decide_applyAll (by decide +kernel)

end Gridwright
