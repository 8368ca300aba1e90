import Gridwright.Proofs.Grid.Bare
import Gridwright.Proofs.Grid.Pending

/-!
# Coherent grids

A grid says the same thing in several places.  Rooms are found by their labels and
exits by their keys; the list of edges repeats what the rooms hold; the pending
tables repeat which labels are rooms and which references there are.
`Grid.Coherent` says that these places agree, and every operation that a builder
performs on a grid keeps it.
-/

namespace Gridwright.Grid

variable {grid wider : Grid}

/-! ### Definitions -/

/-- Every label that an object refers to is known to the pending table of the
slot that refers to it. -/
def Tracks (grid : Grid) (traits : Traits) : Prop :=
  ∀ slot label, traits.reference slot = some (.label label) →
    (grid.pending slot).contains label = true

/-- A room, its references and its exits are in place in a grid. -/
structure Fits (grid : Grid) (room : Room) : Prop where
  real : room.kind = .real
  tracks : grid.Tracks room.traits
  ne_self : ∀ slot, room.traits.reference slot ≠ some (.label room.label)
  keys_nodup : (room.exits.map (·.key)).Nodup
  source : ∀ exit ∈ room.exits, exit.source = room.label
  target : ∀ exit ∈ room.exits, grid.hasRoom exit.target = true
  exit_tracks : ∀ exit ∈ room.exits, grid.Tracks exit.traits
  edges : grid.edges.filter (·.source = room.label) = room.exits.map (·.edge)

/-- An entry of a pending table tells rightly what its label is. -/
def Settles (grid : Grid) (label : Label) : Pending → Prop
  | .placeholder held => held.label = label ∧ grid.hasRoom label = false
  | .resolved room => room = label ∧ grid.hasRoom label = true

/-- All parts of a grid agree with each other. -/
structure Coherent (grid : Grid) : Prop where
  labels_nodup : (grid.rooms.map (·.label)).Nodup
  fits : ∀ room ∈ grid.rooms, grid.Fits room
  edge_source : ∀ edge ∈ grid.edges, grid.hasRoom edge.source = true
  pending_nodup : ∀ slot, (grid.pending slot).keys.Nodup
  settles : ∀ slot label entry, (grid.pending slot).find? label = some entry →
    grid.Settles label entry

theorem coherent_empty : Coherent {} where
  labels_nodup := List.nodup_nil
  fits := by
    intro room hroom
    cases hroom
  edge_source := by
    intro edge hedge
    cases hedge
  pending_nodup := by
    intro slot
    cases slot <;> exact List.nodup_nil
  settles := by
    intro slot label entry hentry
    cases slot <;> cases hentry

theorem Tracks.mono {traits : Traits} (h : grid.Tracks traits)
    (hpending : ∀ slot label, (grid.pending slot).contains label = true →
      (wider.pending slot).contains label = true) : wider.Tracks traits :=
  fun slot label href => hpending slot label (h slot label href)

/-- A room stays in place when rooms, references and edges of other rooms are
added. -/
theorem Fits.mono {room : Room} (h : grid.Fits room)
    (hrooms : ∀ label, grid.hasRoom label = true → wider.hasRoom label = true)
    (hpending : ∀ slot label, (grid.pending slot).contains label = true →
      (wider.pending slot).contains label = true)
    (hedges : wider.edges.filter (·.source = room.label) =
      grid.edges.filter (·.source = room.label)) : wider.Fits room :=
  { h with
    tracks := h.tracks.mono hpending
    target := fun exit hexit => hrooms _ (h.target exit hexit)
    exit_tracks := fun exit hexit => (h.exit_tracks exit hexit).mono hpending
    edges := hedges.trans h.edges }

theorem Coherent.room? {room : Room} (h : grid.Coherent) (hroom : room ∈ grid.rooms) :
    grid.room? room.label = some room :=
  room?_of_mem h.labels_nodup hroom

/-! ### Pending tables -/

/-- Filing a right entry in a pending table keeps a grid coherent. -/
theorem Coherent.insertPending (h : grid.Coherent) (slot : Slot) {label : Label}
    {entry : Pending} (hentry : grid.Settles label entry) :
    (grid.setPending slot ((grid.pending slot).insert label entry)).Coherent := by
  have hpending : ∀ other known, (grid.pending other).contains known = true →
      ((grid.setPending slot ((grid.pending slot).insert label entry)).pending other).contains
        known = true := by
    intro other known hknown
    rw [pending_setPending]
    split
    · rename_i hslot
      rw [OrderedMap.contains_insert, ← hslot, hknown, Bool.or_true]
    · exact hknown
  refine ⟨by simpa using h.labels_nodup, ?_, by simpa using h.edge_source, ?_, ?_⟩
  · intro room hroom
    rw [rooms_setPending] at hroom
    exact (h.fits room hroom).mono (fun _ hlabel => by simpa using hlabel) hpending (by simp)
  · intro other
    rw [pending_setPending]
    split
    · exact OrderedMap.nodup_keys_insert (h.pending_nodup slot) label entry
    · exact h.pending_nodup other
  · intro other known found hfound
    have hsettles : grid.Settles known found := by
      rw [pending_setPending] at hfound
      split at hfound
      · rw [OrderedMap.find?_insert] at hfound
        split at hfound
        · rename_i hlabel
          rw [hlabel, ← Option.some.inj hfound]
          exact hentry
        · exact h.settles slot known found hfound
      · exact h.settles other known found hfound
    cases found <;> simpa [Settles] using hsettles

theorem Coherent.track (h : grid.Coherent) (slot : Slot) (attrBase : String) (label : Label) :
    (grid.track slot attrBase label).Coherent := by
  unfold Grid.track
  by_cases hroom : grid.hasRoom label = true
  · simp only [hroom, if_true]
    exact h.insertPending slot ⟨rfl, hroom⟩
  · simp only [hroom, if_false, Bool.false_eq_true, OrderedMap.insertNew]
    split
    · rw [setPending_pending]
      exact h
    · exact h.insertPending slot ⟨rfl, by simpa using hroom⟩

theorem Coherent.appendPlaceholder? (h : grid.Coherent) {label : Label} {text : String}
    {next : Grid} (hnext : grid.appendPlaceholder? label text = some next) : next.Coherent := by
  obtain ⟨slot, held, hheld, -, rfl⟩ := appendPlaceholder?_eq_some_iff.mp hnext
  have hsettles := h.settles slot label _ (placeholderIn?_eq_some_iff.mp hheld)
  exact h.insertPending slot hsettles

/-! ### Rooms -/

/-- The room that a label becomes, made known to the pending tables, keeps a grid
coherent. -/
theorem Coherent.create (h : grid.Coherent) {room : Room}
    (hnew : grid.hasRoom room.label = false) (hreal : room.kind = .real)
    (htracks : grid.Tracks room.traits)
    (hself : ∀ slot, room.traits.reference slot ≠ some (.label room.label))
    (hexits : room.exits = []) :
    ((grid.resolvePending room.label).withRoom room).Coherent := by
  have hfresh : ∀ other ∈ grid.rooms, other.label ≠ room.label := by
    intro other hother heq
    have hknown : grid.hasRoom room.label = true := hasRoom_iff.mpr ⟨other, hother, heq⟩
    rw [hnew] at hknown
    cases hknown
  have hpending : ∀ slot label, (grid.pending slot).contains label = true →
      (((grid.resolvePending room.label).withRoom room).pending slot).contains label = true := by
    intro slot label hlabel
    simpa using hlabel
  refine ⟨?_, ?_, ?_, ?_, ?_⟩
  · simp only [rooms_withRoom, rooms_resolvePending, List.map_append, List.map_cons,
      List.map_nil]
    refine List.nodup_append.mpr ⟨h.labels_nodup, List.nodup_singleton _, ?_⟩
    intro label hlabel last hlast
    obtain ⟨other, hother, rfl⟩ := List.mem_map.mp hlabel
    rw [List.mem_singleton.mp hlast]
    exact hfresh other hother
  · intro other hother
    rcases List.mem_append.mp hother with hold | hlast
    · exact (h.fits other hold).mono (fun label hlabel => by simp [hlabel]) hpending rfl
    · rw [List.mem_singleton.mp hlast]
      refine ⟨hreal, htracks.mono hpending, hself, ?_, ?_, ?_, ?_, ?_⟩
      · simp [hexits]
      · simp [hexits]
      · simp [hexits]
      · simp [hexits]
      · -- no edge leaves a label that was no room
        simp only [edges_withRoom, edges_resolvePending, hexits, List.map_nil,
          List.filter_eq_nil_iff, decide_eq_true_eq]
        intro edge hedge heq
        have hknown := h.edge_source edge hedge
        rw [heq, hnew] at hknown
        cases hknown
  · intro edge hedge
    have hknown := h.edge_source edge hedge
    simp [hknown]
  · intro slot
    rw [pending_withRoom, pending_resolvePending]
    exact nodup_keys_resolveIn (h.pending_nodup slot) room.label
  · intro slot label entry hentry
    rw [pending_withRoom, pending_resolvePending, find?_resolveIn] at hentry
    split at hentry
    · rename_i hlabel
      rw [← Option.some.inj hentry, hlabel.1]
      exact ⟨rfl, by simp⟩
    · rename_i hlabel
      have hother : room.label ≠ label := by
        intro heq
        exact hlabel ⟨heq.symm, heq ▸ OrderedMap.contains_of_find? hentry⟩
      have hsettles := h.settles slot label entry hentry
      cases entry <;> simpa [Settles, hother] using hsettles

/-! ### Code -/

/-- Whether a room is in place does not depend on its code. -/
theorem Fits.of_bare {room other : Room} (h : grid.Fits room) (heq : other.bare = room.bare) :
    grid.Fits other := by
  obtain ⟨hlabel, hkind, -, htraits, hexits⟩ := Room.bare_eq_bare_iff.mp heq
  have hmem : ∀ exit ∈ other.exits, ∃ twin ∈ room.exits, twin.bare = exit.bare := by
    intro exit hexit
    have hbare : exit.bare ∈ room.exits.map Exit.bare :=
      hexits ▸ List.mem_map_of_mem hexit
    exact List.mem_map.mp hbare
  have hkeys : other.exits.map (·.key) = room.exits.map (·.key) := by
    have := congrArg (List.map Exit.key) hexits
    simpa [Function.comp_def] using this
  have hedges : other.exits.map (·.edge) = room.exits.map (·.edge) := by
    have := congrArg (List.map Exit.edge) hexits
    simpa [Function.comp_def] using this
  refine ⟨hkind.trans h.real, htraits ▸ h.tracks, ?_, hkeys ▸ h.keys_nodup,
    ?_, ?_, ?_, ?_⟩
  · rw [hlabel, htraits]
    exact h.ne_self
  · intro exit hexit
    obtain ⟨twin, htwin, hbare⟩ := hmem exit hexit
    obtain ⟨-, -, hsource, -, -⟩ := Exit.bare_eq_bare_iff.mp hbare
    rw [← hsource, hlabel]
    exact h.source twin htwin
  · intro exit hexit
    obtain ⟨twin, htwin, hbare⟩ := hmem exit hexit
    obtain ⟨-, -, -, htarget, -⟩ := Exit.bare_eq_bare_iff.mp hbare
    rw [← htarget]
    exact h.target twin htwin
  · intro exit hexit
    obtain ⟨twin, htwin, hbare⟩ := hmem exit hexit
    obtain ⟨-, -, -, -, hsame⟩ := Exit.bare_eq_bare_iff.mp hbare
    rw [← hsame]
    exact h.exit_tracks twin htwin
  · rw [hlabel, hedges]
    exact h.edges

/-- A change that is seen in buffers only keeps a grid coherent. -/
theorem Coherent.updateRoom (h : grid.Coherent) (label : Label) (change : Room → Room)
    (hchange : ∀ room, (change room).bare = room.bare) :
    (grid.updateRoom label change).Coherent := by
  have hlabel : ∀ room, (change room).label = room.label :=
    fun room => (Room.bare_eq_bare_iff.mp (hchange room)).1
  have hrooms : ∀ other, (grid.updateRoom label change).hasRoom other = grid.hasRoom other :=
    hasRoom_updateRoom change hlabel label
  refine ⟨?_, ?_, ?_, ?_, ?_⟩
  · have hbare : (grid.updateRoom label change).bare = grid.bare :=
      bare_updateRoom label change hchange
    have hlabels := congrArg (fun bare : Grid => bare.rooms.map (·.label)) hbare
    simp only [rooms_bare, List.map_map, Function.comp_def, Room.label_bare] at hlabels
    rw [hlabels]
    exact h.labels_nodup
  · intro other hother
    obtain ⟨room, hroom, rfl⟩ := List.mem_map.mp hother
    have hfits : grid.Fits (if room.label = label then change room else room) := by
      split
      · exact (h.fits room hroom).of_bare (hchange room)
      · exact h.fits room hroom
    exact hfits.mono (fun known hknown => (hrooms known).trans hknown)
      (fun slot known hknown => by simpa using hknown) rfl
  · intro edge hedge
    rw [hrooms]
    exact h.edge_source edge hedge
  · intro slot
    rw [pending_updateRoom]
    exact h.pending_nodup slot
  · intro slot known entry hentry
    rw [pending_updateRoom] at hentry
    have hsettles := h.settles slot known entry hentry
    cases entry <;> simpa [Settles, hrooms] using hsettles

theorem Coherent.appendRoom? (h : grid.Coherent) {label : Label} {text : String} {next : Grid}
    (hnext : grid.appendRoom? label text = some next) : next.Coherent := by
  obtain ⟨-, rfl⟩ := appendRoom?_eq_some_iff.mp hnext
  exact h.updateRoom label _ fun _ => rfl

theorem Coherent.appendExit? (h : grid.Coherent) {room exit : Label} {text : String}
    {next : Grid} (hnext : grid.appendExit? room exit text = some next) : next.Coherent := by
  obtain ⟨-, rfl⟩ := appendExit?_eq_some_iff.mp hnext
  exact h.updateRoom room _ (Room.bare_appendToExit exit.key text)

/-! ### Exits -/

/-- The room of a new exit stays in place. -/
theorem Fits.withExit {room : Room} {exit : Exit} (h : grid.Fits room)
    (hsource : room.label = exit.source) (hkey : room.exitAt? exit.key = none)
    (htarget : grid.hasRoom exit.target = true) (htracks : grid.Tracks exit.traits) :
    (grid.withExit exit).Fits (room.withExit exit) := by
  have hpending : ∀ slot label, (grid.pending slot).contains label = true →
      ((grid.withExit exit).pending slot).contains label = true := by
    intro slot label hlabel
    rw [pending_withExit]
    exact hlabel
  have hmem : ∀ other ∈ (room.withExit exit).exits, other ∈ room.exits ∨ other = exit := by
    intro other hother
    rcases List.mem_append.mp hother with hold | hlast
    · exact Or.inl hold
    · exact Or.inr (List.mem_singleton.mp hlast)
  refine ⟨h.real, h.tracks.mono hpending, h.ne_self, ?_, ?_, ?_, ?_, ?_⟩
  · simp only [Room.withExit, List.map_append, List.map_cons, List.map_nil]
    refine List.nodup_append.mpr ⟨h.keys_nodup, List.nodup_singleton _, ?_⟩
    intro key hkey' last hlast
    obtain ⟨other, hother, rfl⟩ := List.mem_map.mp hkey'
    rw [List.mem_singleton.mp hlast]
    exact Room.exitAt?_eq_none_iff.mp hkey other hother
  · intro other hother
    rcases hmem other hother with hold | rfl
    · exact h.source other hold
    · exact hsource.symm
  · intro other hother
    rw [hasRoom_withExit]
    rcases hmem other hother with hold | rfl
    · exact h.target other hold
    · exact htarget
  · intro other hother
    rcases hmem other hother with hold | rfl
    · exact (h.exit_tracks other hold).mono hpending
    · exact htracks.mono hpending
  · have hlast : (exit.edge.source = room.label) = True := by simp [Exit.edge, hsource]
    simp only [edges_withExit, Room.withExit, List.filter_append, List.map_append, List.map_cons,
      List.map_nil, List.filter_cons, List.filter_nil, hlast, decide_true, if_true]
    exact congrArg (· ++ [exit.edge]) h.edges

/-- An exit with a new key between two rooms keeps a grid coherent. -/
theorem Coherent.withExit (h : grid.Coherent) {room : Room} {exit : Exit}
    (hroom : grid.room? exit.source = some room) (hkey : room.exitAt? exit.key = none)
    (htarget : grid.hasRoom exit.target = true) (htracks : grid.Tracks exit.traits) :
    (grid.withExit exit).Coherent := by
  have hsource : grid.hasRoom exit.source = true := hasRoom_of_room? hroom
  refine ⟨?_, ?_, ?_, ?_, ?_⟩
  · have hlabels : (grid.withExit exit).rooms.map (·.label) = grid.rooms.map (·.label) := by
      rw [rooms_withExit, List.map_map]
      apply List.map_congr_left
      intro other _
      simp only [Function.comp_apply]
      split <;> rfl
    rw [hlabels]
    exact h.labels_nodup
  · intro other hother
    rw [rooms_withExit] at hother
    obtain ⟨old, hold, rfl⟩ := List.mem_map.mp hother
    by_cases heq : old.label = exit.source
    · have hsame : old = room := by
        have hfound := h.room? hold
        rw [heq, hroom] at hfound
        exact (Option.some.inj hfound).symm
      rw [if_pos heq]
      exact (h.fits old hold).withExit heq (hsame ▸ hkey) htarget htracks
    · rw [if_neg heq]
      have hedge : ¬ exit.edge.source = old.label := fun h => heq h.symm
      exact (h.fits old hold).mono (fun label hlabel => by simpa using hlabel)
        (fun slot label hlabel => by simpa using hlabel)
        (by simp [List.filter_append, hedge])
  · intro edge hedge
    rw [hasRoom_withExit]
    rcases List.mem_append.mp hedge with hold | hlast
    · exact h.edge_source edge hold
    · rw [List.mem_singleton.mp hlast]
      exact hsource
  · intro slot
    rw [pending_withExit]
    exact h.pending_nodup slot
  · intro slot label entry hentry
    rw [pending_withExit] at hentry
    have hsettles := h.settles slot label entry hentry
    cases entry <;> simpa [Settles] using hsettles

end Gridwright.Grid
