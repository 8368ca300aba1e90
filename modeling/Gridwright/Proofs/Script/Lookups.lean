import Gridwright.Proofs.Script.Order
import Gridwright.Proofs.Script.Wording

/-!
# Attributes are stored before they are looked up

The script keeps the dbrefs of what it creates in attributes of the builder.  A proxy is stored
before anything is done to it, a room before it is entered, and all of them before the exits are
opened.  So a look-up can miss in one place only: where a room is given a parent or zone that is
dug behind it, and that takes a master with a parent or zone of its own.
-/

namespace Gridwright

/-! ### Look-ups of a command -/

/-- The attribute that a target is looked up in. -/
def Target.attr? : Target → Option String
  | .dbref _ => none
  | .stored attr => some attr

/-- The attributes that a command looks up, code of the grid aside. -/
def Command.lookUps : Command → List String
  | .lock attr | .lockZone attr | .linkHome attr | .goTo attr | .putHere attr | .goOut attr
  | .takeBack attr => [attr]
  | .ensureExit _ _ target | .openExit _ target => [target]
  | .setParent _ target | .setParentByFunction _ target | .setZone _ target => target.attr?.toList
  | .comment _ | .announce _ | .warn _ | .makeBranch _ | .digAndEnter _ | .storeHere _
  | .storeHereByFunction _ | .createThing _ _ | .ensureThing _ _ | .ensureRoom _ _ | .run _
  | .setFlags _ _ => []

/-- The attribute that a command stores a dbref in. -/
def Command.stores? : Command → Option String
  | .storeHere attr | .storeHereByFunction attr | .createThing attr _ | .ensureThing attr _
  | .ensureRoom attr _ => some attr
  | _ => none

/-- A command looks up what it calls `v` for. -/
theorem Command.lookUps_eq_arguments (command : Command) :
    command.lookUps = command.arguments "v(" := by
  cases command with
  | setParent subject target | setParentByFunction subject target | setZone subject target =>
      cases target with
      | dbref text | stored text =>
          unfold lookUps arguments words given
          simp +decide [Target.attr?]
  | _ =>
      unfold lookUps arguments words given
      simp +decide

theorem Command.lookUp_infix_render {command : Command} {attr : String}
    (h : attr ∈ command.lookUps) : ("v(" ++ attr ++ ")").toList <:+: command.render.toList :=
  infix_render (command.lookUps_eq_arguments ▸ h)

/-- The words in front of an attribute that a command writes. -/
def Command.writingWords : List String := ["@set me=", "think set(me,"]

theorem Command.stores?_eq_given (command : Command) :
    command.stores? =
      if ∃ word ∈ writingWords, command.words.head? = some word then command.given.head?
      else none := by
  cases command with
  | setParent subject target | setParentByFunction subject target | setZone subject target =>
      cases target <;> rfl
  | _ => rfl

theorem Command.store_prefix_render {command : Command} {attr : String}
    (h : command.stores? = some attr) :
    ∃ word ∈ writingWords, (word ++ attr).toList <+: command.render.toList := by
  rw [stores?_eq_given] at h
  split at h
  · rename_i hword
    obtain ⟨word, hmem, hword⟩ := hword
    exact ⟨word, hmem, prefix_render hword h⟩
  · cases h

namespace Script

variable {grid : Grid} {mode : Mode}

/-- The attributes that commands store dbrefs in. -/
def stored (commands : List Command) : List String := commands.flatMap (·.stores?.toList)

theorem mem_stored {commands : List Command} {attr : String} :
    attr ∈ stored commands ↔ ∃ command ∈ commands, command.stores? = some attr := by
  simp only [stored, List.mem_flatMap, Option.mem_toList]

theorem stored_append (first second : List Command) :
    stored (first ++ second) = stored first ++ stored second := List.flatMap_append

/-! ### Settled commands -/

/-- Commands that only look up what is known or has been stored by a command before. -/
def Settled (known : List String) : List Command → Prop
  | [] => True
  | command :: rest =>
    (∀ attr ∈ command.lookUps, attr ∈ known) ∧ Settled (command.stores?.toList ++ known) rest

theorem Settled.mono {known wider : List String} {commands : List Command}
    (h : Settled known commands) (hknown : ∀ attr ∈ known, attr ∈ wider) :
    Settled wider commands := by
  induction commands generalizing known wider with
  | nil => trivial
  | cons command rest ih =>
      refine ⟨fun attr hattr => hknown attr (h.1 attr hattr), ih h.2 ?_⟩
      intro attr hattr
      rcases List.mem_append.mp hattr with hown | hold
      · exact List.mem_append_left _ hown
      · exact List.mem_append_right _ (hknown attr hold)

theorem settled_of_forall {known : List String} {commands : List Command}
    (h : ∀ command ∈ commands, ∀ attr ∈ command.lookUps, attr ∈ known) :
    Settled known commands := by
  induction commands generalizing known with
  | nil => trivial
  | cons command rest ih =>
      refine ⟨h command List.mem_cons_self, ih ?_⟩
      intro other hother attr hattr
      exact List.mem_append_right _ (h other (List.mem_cons_of_mem command hother) attr hattr)

theorem Settled.append {known : List String} {first second : List Command}
    (hfirst : Settled known first) (hsecond : Settled (stored first ++ known) second) :
    Settled known (first ++ second) := by
  induction first generalizing known with
  | nil => exact hsecond
  | cons command rest ih =>
      refine ⟨hfirst.1, ih hfirst.2 (hsecond.mono ?_)⟩
      intro attr hattr
      simp only [stored, List.flatMap_cons, List.mem_append] at hattr ⊢
      rcases hattr with (hown | hrest) | hold
      · exact .inr (.inl hown)
      · exact .inl hrest
      · exact .inr (.inr hold)

theorem settled_flatMap {α : Type} {known : List String} {items : List α}
    {part : α → List Command} (h : ∀ item ∈ items, Settled known (part item)) :
    Settled known (items.flatMap part) := by
  induction items with
  | nil => trivial
  | cons item rest ih =>
      have hrest := ih fun other hother => h other (List.mem_cons_of_mem item hother)
      refine (h item List.mem_cons_self).append (hrest.mono ?_)
      exact fun attr hattr => List.mem_append_right _ hattr

/-- What a settled command looks up is known or stored in front of it. -/
theorem Settled.of_split {known : List String} {before after : List Command}
    {command : Command} (h : Settled known (before ++ command :: after)) {attr : String}
    (hattr : attr ∈ command.lookUps) : attr ∈ stored before ∨ attr ∈ known := by
  induction before generalizing known with
  | nil => exact .inr (h.1 attr hattr)
  | cons first rest ih =>
      simp only [stored, List.flatMap_cons, List.mem_append]
      rcases ih h.2 with hrest | hknown
      · exact .inl (.inr hrest)
      · rcases List.mem_append.mp hknown with hown | hold
        · exact .inl (.inl hown)
        · exact .inr hold

/-! ### Proxies -/

theorem attrName_mem_stored_createProxy (mode : Mode) (room : Room) :
    room.attrName ∈ stored (createProxy mode room) := by
  cases mode <;> simp [createProxy, stored, Command.stores?]

/-- A proxy is stored first, and then looked up under its own attribute. -/
theorem settled_proxy (known : List String) (mode : Mode) (room : Room) :
    Settled known (proxy mode room) := by
  have hcreate : Settled known (createProxy mode room) := by
    cases mode <;> simp [createProxy, Settled, Command.lookUps]
  have hfixed : ∀ command ∈ [Command.lock room.attrName, .lockZone room.attrName,
      .linkHome room.attrName], ∀ attr ∈ command.lookUps, attr = room.attrName := by
    simp [Command.lookUps]
  have hcode : ∀ command ∈ proxyCode mode room, ∀ attr ∈ command.lookUps,
      attr = room.attrName := by
    unfold proxyCode
    split
    · simp
    · cases mode <;> simp [Command.lookUps]
  rw [proxy, List.append_assoc]
  refine hcreate.append (settled_of_forall ?_)
  intro command hcommand attr hattr
  have hown : attr = room.attrName := by
    rcases List.mem_append.mp hcommand with hmem | hmem
    · exact hfixed command hmem attr hattr
    · exact hcode command hmem attr hattr
  rw [hown]
  exact List.mem_append_left _ (attrName_mem_stored_createProxy mode room)

theorem settled_proxies (known : List String) (mode : Mode) (grid : Grid) (role : String)
    (labels : List Label) : Settled known (proxies mode grid role labels) := by
  unfold proxies
  split
  · trivial
  · exact ⟨by simp [Command.lookUps], settled_flatMap fun room _ => settled_proxy _ mode room⟩

theorem attrName_mem_stored_proxies {role : String} {labels : List Label} {room : Room}
    (hlabel : room.label ∈ labels) (hroom : grid.room? room.label = some room) (mode : Mode) :
    room.attrName ∈ stored (proxies mode grid role labels) := by
  have hne : labels.isEmpty = false := by
    cases labels with
    | nil => cases hlabel
    | cons label rest => rfl
  obtain ⟨command, hcommand, hstores⟩ := mem_stored.mp (attrName_mem_stored_createProxy mode room)
  refine mem_stored.mpr ⟨command, ?_, hstores⟩
  rw [proxies, hne]
  refine List.mem_cons_of_mem _ (List.mem_flatMap.mpr ⟨room, ?_, ?_⟩)
  · exact List.mem_filterMap.mpr ⟨room.label, hlabel, hroom⟩
  · rw [proxy, List.append_assoc]
    exact List.mem_append_left _ hcommand

theorem settled_opening (mode : Mode) (grid : Grid) (promotion : Promotion) :
    Settled [] (opening mode grid promotion) := by
  have hpreamble : Settled [] (preamble grid) := by
    refine settled_of_forall ?_
    simp [preamble, Command.lookUps]
  have htrees : ∀ known, Settled known (attributeTrees grid) := by
    intro known
    refine settled_of_forall ?_
    unfold attributeTrees
    split
    · simp
    · simp [Command.lookUps]
  rw [opening]
  refine Settled.append (Settled.append (Settled.append (hpreamble.append (htrees _)) ?_) ?_) ?_
  · exact settled_proxies _ mode grid _ _
  · exact settled_proxies _ mode grid _ _
  · exact ⟨by simp [Command.lookUps], trivial⟩

/-! ### What the rooms are stored in -/

/-- The finished grid of a coherent one has every stand-in in the list of its slot. -/
theorem attrName_mem_stored_opening (h : grid.Coherent) {room : Room}
    (hroom : room ∈ grid.promote.1.rooms) (hproxy : room.kind = .proxy) (mode : Mode) :
    room.attrName ∈ stored (opening mode grid.promote.1 grid.promote.2) := by
  have hfound : grid.promote.1.room? room.label = some room :=
    Grid.room?_of_mem h.nodup_labels_promote hroom
  have hlisted : room.label ∈ grid.promote.2.parents ∨ room.label ∈ grid.promote.2.zones := by
    rw [h.rooms_promote] at hroom
    rcases List.mem_append.mp hroom with hold | hstandIn
    · rw [(h.fits room hold).real] at hproxy
      cases hproxy
    · obtain ⟨placeholder, hplaceholder, rfl⟩ := List.mem_map.mp hstandIn
      rw [h.promote_eq]
      rcases List.mem_append.mp hplaceholder with hparent | hzone
      · exact .inl (List.mem_map_of_mem hparent)
      · exact .inr (List.mem_map_of_mem hzone)
  simp only [opening, stored_append, List.mem_append]
  rcases hlisted with hparent | hzone
  · exact .inl (.inl (.inr (attrName_mem_stored_proxies hparent hfound mode)))
  · exact .inl (.inr (attrName_mem_stored_proxies hzone hfound mode))

theorem stores?_storing (mode : Mode) (room : Room) :
    (storing mode room).stores? = some room.attrName := by
  cases mode <;> rfl

/-- When the rooms have been dug, all of them are stored. -/
theorem attrName_mem_stored_digging (h : grid.Coherent) {room : Room}
    (hroom : room ∈ grid.promote.1.rooms) (mode : Mode) :
    room.attrName ∈ stored (opening mode grid.promote.1 grid.promote.2 ++
      (digging mode grid.promote.1).map (·.2)) := by
  rw [stored_append]
  cases hkind : room.kind with
  | proxy => exact List.mem_append_left _ (attrName_mem_stored_opening h hroom hkind mode)
  | real =>
      refine List.mem_append_right _ (mem_stored.mpr ⟨storing mode room, ?_, ?_⟩)
      · exact List.mem_map.mpr
          ⟨_, storing_mem_digging mode (mem_buildOrder.mpr ⟨hroom, hkind⟩), rfl⟩
      · exact stores?_storing mode room

/-! ### Parents and zones -/

/-- The command that gives a master to an object. -/
def giving (mode : Mode) (subject : String) : Slot → Room → Command
  | .parent, master => parentCommand mode subject (.stored master.attrName)
  | .zone, master => .setZone subject (.stored master.attrName)

theorem giving_here (mode : Mode) (slot : Slot) (master : Room) :
    giving mode "here" slot master = assigning mode slot master := by
  cases slot <;> rfl

theorem lookUps_giving (mode : Mode) (subject : String) (slot : Slot) (master : Room) :
    (giving mode subject slot master).lookUps = [master.attrName] := by
  cases slot with
  | parent =>
      simp only [giving, parentCommand]
      split <;> rfl
  | zone => rfl

/-- Among the commands that give an object its traits, those that look something up give it a
room of the grid. -/
theorem lookUps_wire {subject : String} {traits : Traits} {command : Command}
    (hcommand : .ok command ∈ wire mode grid subject traits) {attr : String}
    (hattr : attr ∈ command.lookUps) :
    ∃ slot label master, traits.reference slot = some (.label label) ∧
      grid.room? label = some master ∧ command = giving mode subject slot master ∧
      attr = master.attrName := by
  -- a reference that is no dbref is a room, and the command gives that room
  have hgiven : ∀ (slot : Slot) (reference : Reference) (give : Target → Command),
      traits.reference slot = some reference → (∀ text, (give (.dbref text)).lookUps = []) →
      (∀ master : Room, give (.stored master.attrName) = giving mode subject slot master) →
      (target grid reference).map give = .ok command →
        ∃ label master, traits.reference slot = some (.label label) ∧
          grid.room? label = some master ∧ command = giving mode subject slot master := by
    intro slot reference give href hdbref hgive hstep
    cases reference with
    | dbref text =>
        cases hstep
        rw [hdbref] at hattr
        cases hattr
    | label label =>
        cases hmaster : grid.room? label with
        | none =>
            simp only [target, hmaster] at hstep
            cases hstep
        | some master =>
            simp only [target, hmaster] at hstep
            cases hstep
            exact ⟨label, master, href, hmaster, hgive master⟩
  obtain ⟨slot, label, master, href, hmaster, hgiving⟩ : ∃ slot label master,
      traits.reference slot = some (.label label) ∧ grid.room? label = some master ∧
        command = giving mode subject slot master := by
    simp only [wire, List.mem_append, List.mem_map, Option.mem_toList] at hcommand
    rcases hcommand with (⟨reference, href, hstep⟩ | ⟨reference, href, hstep⟩) | ⟨flags, -, hstep⟩
    · exact ⟨.parent, hgiven .parent reference _ href (fun _ => rfl) (fun _ => rfl) hstep⟩
    · exact ⟨.zone, hgiven .zone reference _ href (fun _ => rfl) (fun _ => rfl) hstep⟩
    · cases hstep
      cases hattr
  refine ⟨slot, label, master, href, hmaster, hgiving, ?_⟩
  rwa [hgiving, lookUps_giving, List.mem_singleton] at hattr

/-! ### Exits -/

theorem lookUps_runCode {code : String} {command : Command} (hcommand : command ∈ runCode code) :
    command.lookUps = [] := by
  unfold runCode at hcommand
  split at hcommand
  · cases hcommand
  · rw [List.mem_singleton.mp hcommand]
    rfl

theorem lookUps_openExit {exit : Exit} {command : Command}
    (hcommand : .ok command ∈ openExit mode grid exit) {attr : String}
    (hattr : attr ∈ command.lookUps) : ∃ room ∈ grid.rooms, attr = room.attrName := by
  unfold openExit at hcommand
  split at hcommand
  · cases List.mem_singleton.mp hcommand
  · rename_i destination hdestination
    rcases List.mem_cons.mp hcommand with hopen | hmem
    · cases hopen
      refine ⟨destination, List.mem_of_find?_eq_some hdestination, ?_⟩
      unfold openCommand at hattr
      split at hattr <;> exact List.mem_singleton.mp hattr
    · rcases List.mem_append.mp hmem with hwire | hrun
      · obtain ⟨_, _, master, -, hmaster, -, rfl⟩ := lookUps_wire hwire hattr
        exact ⟨master, List.mem_of_find?_eq_some hmaster, rfl⟩
      · obtain ⟨run, hrun, heq⟩ := List.mem_map.mp hrun
        cases heq
        rw [lookUps_runCode hrun] at hattr
        cases hattr

theorem lookUps_link {room : Room} (hroom : room ∈ grid.rooms) {command : Command}
    (hcommand : .ok command ∈ link mode grid room) {attr : String}
    (hattr : attr ∈ command.lookUps) : ∃ found ∈ grid.rooms, attr = found.attrName := by
  simp only [link, List.mem_append] at hcommand
  rcases hcommand with ((hwarn | hgo) | hopen) | hrun
  · split at hwarn
    · cases List.mem_singleton.mp hwarn
      cases hattr
    · cases hwarn
  · split at hgo
    · cases List.mem_singleton.mp hgo
      exact ⟨room, hroom, List.mem_singleton.mp hattr⟩
    · cases hgo
  · obtain ⟨exit, -, hmem⟩ := List.mem_flatMap.mp hopen
    exact lookUps_openExit hmem hattr
  · obtain ⟨run, hrun, heq⟩ := List.mem_map.mp hrun
    cases heq
    rw [lookUps_runCode hrun] at hattr
    cases hattr

/-- What stands behind the rooms looks up rooms of the grid. -/
theorem lookUps_closing (hclosed : grid.Closed) {command : Command}
    (hcommand : command ∈ closing mode grid) {attr : String} (hattr : attr ∈ command.lookUps) :
    ∃ room ∈ grid.rooms, attr = room.attrName := by
  rcases List.mem_append.mp hcommand with hlinks | hwarnings
  · rcases List.mem_cons.mp hlinks with rfl | hlink
    · cases hattr
    · obtain ⟨room, hroom, hmem⟩ := List.mem_flatMap.mp hlink
      rw [mem_commands (link_ok_of_mem hclosed mode hroom)] at hmem
      exact lookUps_link (mem_buildOrder.mp hroom).1 hmem hattr
  · obtain ⟨room, -, rfl⟩ := List.mem_map.mp hwarnings
    cases hattr

/-! ### Rooms -/

/-- An element of two lists together stands in the first or in the second one. -/
theorem split_append {α : Type} {first second before after : List α} {found : α}
    (h : first ++ second = before ++ found :: after) :
    (∃ back, first = before ++ found :: back) ∨
      ∃ front, before = first ++ front ∧ second = front ++ found :: after := by
  rcases List.append_eq_append_iff.mp h with hsecond | ⟨back, hfirst, hback⟩
  · exact .inr hsecond
  · cases back with
    | nil => exact .inr ⟨[], by rw [hfirst, List.append_nil, List.append_nil], hback.symm⟩
    | cons first back =>
        obtain ⟨rfl, -⟩ := List.cons.inj hback
        exact .inl ⟨back, hfirst⟩

theorem split_flatMap {α β : Type} {items : List α} {part : α → List β}
    {before after : List β} {found : β} (h : items.flatMap part = before ++ found :: after) :
    ∃ item ∈ items, ∃ earlier front back, part item = front ++ found :: back ∧
      before = earlier ++ front := by
  induction items generalizing before with
  | nil => simp at h
  | cons item rest ih =>
      rw [List.flatMap_cons] at h
      rcases split_append h with ⟨back, hpart⟩ | ⟨front, hbefore, hrest⟩
      · exact ⟨item, List.mem_cons_self, [], before, back, hpart, rfl⟩
      · obtain ⟨other, hother, earlier, inner, back, hpart, rfl⟩ := ih hrest
        exact ⟨other, List.mem_cons_of_mem item hother, part item ++ earlier, inner, back, hpart,
          by rw [hbefore, List.append_assoc]⟩

/-- A command that digs a room and looks something up enters the room, which is stored then, or
gives the room a master. -/
theorem lookUps_dig (hclosed : grid.Closed) {room : Room} (hroom : room ∈ buildOrder grid)
    {before after : List Command} {command : Command}
    (hsplit : commands (dig mode grid room) = before ++ command :: after) {attr : String}
    (hattr : attr ∈ command.lookUps) :
    storing mode room ∈ before ∧ attr = room.attrName ∨
      ∃ slot label master, room.traits.reference slot = some (.label label) ∧
        grid.room? label = some master ∧ command = assigning mode slot master ∧
        attr = master.attrName := by
  obtain ⟨hmem, hreal⟩ := mem_buildOrder.mp hroom
  have hcommand : command ∈ commands (dig mode grid room) := by
    rw [hsplit]
    simp
  rw [commands_dig] at hcommand hsplit
  rcases List.mem_append.mp hcommand with hcreate | hwire
  · left
    -- only a managed room is entered by a look-up, and its first command stores it
    cases mode with
    | managed =>
        have hgoTo : command = .goTo room.attrName := by
          rcases List.mem_cons.mp hcreate with rfl | hrest
          · cases hattr
          · exact List.mem_singleton.mp hrest
        rw [hgoTo] at hattr hsplit
        refine ⟨?_, List.mem_singleton.mp hattr⟩
        cases before with
        | nil => cases hsplit
        | cons first rest =>
            obtain ⟨rfl, -⟩ := List.cons.inj hsplit
            exact List.mem_cons_self
    | unmanaged | noSideEffects =>
        rcases List.mem_cons.mp hcreate with rfl | hrest
        · cases hattr
        · cases List.mem_singleton.mp hrest
          cases hattr
  · right
    rw [mem_commands (wire_ok (hclosed.room room hmem hreal) mode "here")] at hwire
    obtain ⟨slot, label, master, href, hmaster, hgiving, hname⟩ := lookUps_wire hwire hattr
    exact ⟨slot, label, master, href, hmaster, hgiving.trans (giving_here mode slot master), hname⟩

/-- A command gives a room a real master that has a parent or a zone, in its place among the
commands that dig the rooms. -/
def GivesRanked (mode : Mode) (grid : Grid) (done : List (Room × Command)) (command : Command) :
    Prop :=
  ∃ slot room master, grid.Depends slot room master ∧
    (master.traits.zone ≠ none ∨ master.traits.parent ≠ none) ∧
    command = assigning mode slot master ∧ done ++ [(room, command)] <+: digging mode grid

theorem stored_of_split_digging (h : grid.Coherent) {done rest : List (Room × Command)}
    {room : Room} {command : Command}
    (hsplit : digging mode grid.promote.1 = done ++ (room, command) :: rest) {attr : String}
    (hattr : attr ∈ command.lookUps) :
    attr ∈ stored (opening mode grid.promote.1 grid.promote.2 ++ done.map (·.2)) ∨
      GivesRanked mode grid.promote.1 done command := by
  have hlabels := h.nodup_labels_promote
  -- the commands for the same room that stand in front
  obtain ⟨dug, hdug, earlier, front, back, hblock, hdone⟩ := split_flatMap hsplit
  obtain ⟨own, next, hown, rfl, hnext⟩ := List.map_eq_append_iff.mp hblock
  obtain ⟨found, others, rfl, hfound, -⟩ := List.map_eq_cons_iff.mp hnext
  obtain ⟨rfl, rfl⟩ := Prod.mk.inj hfound
  rw [stored_append, List.mem_append]
  rcases lookUps_dig h.closed_promote hdug hown hattr with ⟨hstoring, rfl⟩ |
    ⟨slot, label, master, href, hmaster, hcommand, rfl⟩
  · refine .inl (.inr (mem_stored.mpr ⟨storing mode dug, ?_, stores?_storing mode dug⟩))
    simp [hdone, hstoring]
  · have hmem : master ∈ grid.promote.1.rooms := List.mem_of_find?_eq_some hmaster
    have hlabel : master.label = label := by simpa using List.find?_some hmaster
    cases hkind : master.kind with
    | proxy => exact .inl (.inl (attrName_mem_stored_opening h hmem hkind mode))
    | real =>
        have hdepends : grid.promote.1.Depends slot dug master :=
          ⟨mem_buildOrder.mp hdug, ⟨hmem, hkind⟩, hlabel ▸ href⟩
        by_cases hbare : master.traits.zone = none ∧ master.traits.parent = none
        · have hstored := storing_mem_digging mode (mem_buildOrder.mpr hdepends.known)
          have hfirst := standing_lt_of_bare hdepends hbare.1 hbare.2
          have hin := (mem_before_iff hlabels.of_map (h.ne_of_depends hdepends) hstored
            hsplit).mpr hfirst
          exact .inl (.inr (mem_stored.mpr
            ⟨storing mode master, List.mem_map_of_mem hin, stores?_storing mode master⟩))
        · refine .inr ⟨slot, dug, master, hdepends, not_and_or.mp hbare, hcommand, rest, ?_⟩
          rw [List.append_assoc, List.singleton_append, hsplit]

/-! ### Scripts -/

/-- In every script for what directives declare, whatever the mode: where a command looks an
attribute up, a command before it has stored a dbref there, unless it is one of those that give
a room a real master with a parent or a zone while the rooms are dug. -/
theorem looked_up_after_stored {options : BuildOptions} {directives : List Directive}
    {builder : Builder} (hrun : Builder.applyAll options {} directives = .ok builder)
    (mode : Mode) :
    let grid := builder.grid.promote.1
    let start := opening mode grid builder.grid.promote.2
    ∃ commands, generate mode builder.grid = .ok commands ∧
      ∀ before command after, commands = before ++ command :: after →
        ∀ attr ∈ command.lookUps,
          (∃ earlier ∈ before, earlier.stores? = some attr) ∨
            ∃ done, before = start ++ done.map (·.2) ∧ GivesRanked mode grid done command := by
  intro grid start
  have h : builder.grid.Coherent := (Builder.coherent_of_applyAll hrun).grid
  refine ⟨_, generate_eq h mode, ?_⟩
  intro before command after hcommands attr hattr
  rw [← mem_stored]
  rcases split_append hcommands with ⟨back, hdug⟩ | ⟨front, rfl, hclosing⟩
  · rcases split_append hdug with ⟨back, hopening⟩ | ⟨front, rfl, hdigging⟩
    · have hsettled : Settled [] (before ++ command :: back) :=
        hopening ▸ settled_opening mode grid builder.grid.promote.2
      exact .inl ((hsettled.of_split hattr).resolve_right (List.not_mem_nil))
    · obtain ⟨done, next, hsplit, rfl, hnext⟩ := List.map_eq_append_iff.mp hdigging
      obtain ⟨⟨room, found⟩, rest, rfl, rfl, -⟩ := List.map_eq_cons_iff.mp hnext
      exact (stored_of_split_digging h hsplit hattr).imp_right fun hranked => ⟨done, rfl, hranked⟩
  · have hmem : command ∈ closing mode grid := hclosing ▸ by simp
    obtain ⟨room, hroom, rfl⟩ := lookUps_closing h.closed_promote hmem hattr
    rw [stored_append]
    exact .inl (List.mem_append_left _ (attrName_mem_stored_digging h hroom mode))

/-- A zone that is never created: its proxy is stored before the first room is put into it. -/
theorem looked_up_after_stored_sample :
    let source : Source := ⟨"manor.qb", "ROOM ZONE: \"Area\"\n\"up\" : \"Cellar\" -> \"Hall\"\n"⟩
    let zoning : Command := .setZone "here" (.stored "ROOM.Area")
    ∃ builder commands, buildSources {} [source] = .ok builder ∧
      generate .managed builder.grid = .ok commands ∧ zoning ∈ commands ∧
      ∀ before after, commands = before ++ zoning :: after →
        ∃ earlier ∈ before, earlier.stores? = some "ROOM.Area" := by
  intro source zoning
  have hseen : (buildSources {} [source]).map (fun builder =>
      decide ((∀ room ∈ builder.grid.promote.1.rooms, room.kind = .real →
          room.attrName ≠ "ROOM.Area") ∧
        (generate .managed builder.grid).map (fun commands => decide (zoning ∈ commands)) =
          .ok true)) = .ok true := by
    decide +kernel
  obtain ⟨builder, hbuild, hothers, hzoning⟩ := Builder.exists_of_decide_applyAll hseen
  obtain ⟨commands, hcommands, hstored⟩ := looked_up_after_stored hbuild .managed
  rw [hcommands] at hzoning
  refine ⟨builder, commands, hbuild, hcommands, of_decide_eq_true (Except.ok.inj hzoning), ?_⟩
  intro before after hsplit
  have hlookUps : zoning.lookUps = ["ROOM.Area"] := rfl
  rcases hstored before zoning after hsplit "ROOM.Area" (by simp [hlookUps]) with
    hearlier | ⟨done, -, slot, room, master, hdepends, -, hassigning, -⟩
  · exact hearlier
  · rw [hassigning, ← giving_here, lookUps_giving] at hlookUps
    exact absurd (List.singleton_inj.mp hlookUps)
      (hothers master hdepends.known.1 hdepends.known.2)

end Script

end Gridwright
