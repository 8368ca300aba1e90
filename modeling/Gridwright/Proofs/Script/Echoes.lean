import Gridwright.Proofs.Script.Warnings
import Gridwright.Proofs.Softcode

/-!
# Warnings that are echoed

A warning is echoed by a command that prints it, and what it prints is evaluated first.  The name
of a room stands in the message as it is, so the message comes out as it was written, with
nothing in it evaluated, exactly if the name holds no character that the evaluator acts upon
(`echoes_inert_iff`).
-/

namespace Gridwright

namespace Softcode

/-! ### Printed texts -/

/-- A text without special characters. -/
def Plain (s : List Char) : Prop := ∀ c ∈ s, c ∉ specialChars

instance (s : List Char) : Decidable (Plain s) := List.decidableBAll (· ∉ specialChars) s

/-- The evaluator prints a message for a text and acts upon nothing in it but line breaks. -/
structure Prints (written message : List Char) : Prop where
  unescape_eq : unescapeChars written = message
  closed : Token.lone ∉ scan written
  inert : ∀ before c after, scan written = before ++ .plain c :: after → c ∈ specialChars →
    c = '%' ∧ ∃ rest, after = .plain 'r' :: rest

theorem length_unescapeChars_le (s : List Char) : (unescapeChars s).length ≤ s.length := by
  fun_induction unescapeChars s <;> simp only [List.length_cons, List.length_nil] at * <;> omega

theorem prints_cons_iff {c : Char} (hplain : c ∉ specialChars) {s message : List Char} :
    Prints (c :: s) (c :: message) ↔ Prints s message := by
  have hslash : c ≠ '\\' := by
    rintro rfl
    exact hplain (by decide)
  have hpercent : c ≠ '%' := by
    rintro rfl
    exact hplain (by decide)
  have hunescape := unescapeChars_cons hslash hpercent s
  have hscan := scan_cons hslash s
  constructor
  · intro h
    refine ⟨(List.cons.inj (hunescape.symm.trans h.unescape_eq)).2, ?_, ?_⟩
    · exact fun hlone => h.closed (hscan ▸ List.mem_cons_of_mem _ hlone)
    · intro before d after hsplit
      exact h.inert (.plain c :: before) d after (by rw [hscan, hsplit, List.cons_append])
  · intro h
    refine ⟨by rw [hunescape, h.unescape_eq], ?_, ?_⟩
    · rw [hscan, List.mem_cons, not_or]
      exact ⟨Token.noConfusion, h.closed⟩
    · intro before d after hsplit hspecial
      rw [hscan] at hsplit
      rcases before with _ | ⟨first, before⟩
      · cases (List.cons.inj hsplit).1
        exact absurd hspecial hplain
      · exact h.inert before d after (List.cons.inj hsplit).2 hspecial

/-- A text that starts with a special character is printed as another one, or the evaluator acts
upon that character. -/
theorem not_prints_self_of_special {c : Char} (hspecial : c ∈ specialChars) (s : List Char) :
    ¬ Prints (c :: s) (c :: s) := by
  intro h
  by_cases hslash : c = '\\'
  · subst hslash
    have hread := h.unescape_eq
    -- a backslash is taken away, and nothing makes a text longer
    rcases s with _ | ⟨d, rest⟩
    · cases hread
    · have hshort := length_unescapeChars_le rest
      rw [(List.cons.inj hread).2, List.length_cons] at hshort
      omega
  · obtain ⟨rfl, rest, hrest⟩ := h.inert [] c _ (scan_cons hslash s) hspecial
    -- a percent sign that stands for a line break is not printed
    rcases s with _ | ⟨d, behind⟩
    · cases hrest
    · have hletter : d = 'r' := by
        by_cases hd : d = '\\'
        · subst hd
          rcases behind with _ | ⟨e, behind⟩
          · cases (List.cons.inj hrest).1
          · cases (List.cons.inj hrest).1
        · rw [scan_cons hd] at hrest
          cases (List.cons.inj hrest).1
          rfl
      subst hletter
      exact absurd (List.cons.inj h.unescape_eq).1 (by decide)

/-- A text that is written as it is comes out as it is, with nothing in it evaluated, exactly if
it holds no special character. -/
theorem prints_self_iff {s : List Char} : Prints s s ↔ Plain s := by
  induction s with
  | nil =>
      have hempty : Prints [] [] := ⟨rfl, List.not_mem_nil, fun before c after hsplit => by
        cases before <;> cases hsplit⟩
      exact iff_of_true hempty (List.forall_mem_nil _)
  | cons c s ih =>
      rw [Plain, List.forall_mem_cons]
      by_cases hspecial : c ∈ specialChars
      · exact iff_of_false (not_prints_self_of_special hspecial s) fun h => h.1 hspecial
      · rw [prints_cons_iff hspecial, ih]
        exact (and_iff_right hspecial).symm

end Softcode

namespace Script

open Softcode

variable {grid : Grid}

/-! ### Messages -/

theorem mem_messages {message : String} (h : message ∈ messages grid) :
    ∃ room ∈ buildOrder grid, message = noExits room ∨ message = noEntrances room := by
  rcases List.mem_append.mp h with hmem | hmem
  · obtain ⟨room, hroom, rfl⟩ := List.mem_map.mp hmem
    exact ⟨room, List.mem_of_mem_filter hroom, .inl rfl⟩
  · obtain ⟨room, hroom, rfl⟩ := List.mem_map.mp hmem
    exact ⟨room, List.mem_of_mem_filter hroom, .inr rfl⟩

/-- What stands before the name in a message is printed as it is. -/
theorem prints_message_iff {room : Room} {message : String}
    (h : message = noExits room ∨ message = noEntrances room) :
    Prints message.toList message.toList ↔ Plain room.name.toList := by
  have htexts : ∀ text ∈ ["Creating room with no exits: ", "Created room with no entrances: "],
      Plain text.toList := by
    decide +kernel
  obtain ⟨text, htext, rfl⟩ : ∃ text ∈ ["Creating room with no exits: ",
      "Created room with no entrances: "], message = text ++ room.name := by
    rcases h with rfl | rfl
    · exact ⟨_, List.mem_cons_self, rfl⟩
    · exact ⟨_, List.mem_cons_of_mem _ List.mem_cons_self, rfl⟩
  rw [prints_self_iff, String.toList_append, Plain, List.forall_mem_append]
  exact and_iff_right (htexts text htext)

/-! ### Scripts -/

/-- Every warning in a script for what directives declare, whatever the mode, is about a real
room and is echoed as it is.  The echo prints the message and evaluates nothing exactly if the
name of the room holds no character that the evaluator acts upon. -/
theorem echoes_inert_iff {options : BuildOptions} {directives : List Directive}
    {builder : Builder} (hrun : Builder.applyAll options {} directives = .ok builder)
    (mode : Mode) :
    ∃ commands, generate mode builder.grid = .ok commands ∧
      ∀ command ∈ commands, ∀ message, command.warning? = some message →
        ∃ room ∈ buildOrder builder.grid.promote.1,
          (message = noExits room ∨ message = noEntrances room) ∧
          ∃ written, command.render = "think WARNING: " ++ written ∧
            (Prints written.toList message.toList ↔ Plain room.name.toList) := by
  have h : builder.grid.Coherent := (Builder.coherent_of_applyAll hrun).grid
  refine ⟨_, generate_eq_script h mode, ?_⟩
  intro command hcommand message hmessage
  have hkept : command ∈ (script mode builder.grid).filter (·.warning?.isSome) :=
    List.mem_filter.mpr ⟨hcommand, by rw [hmessage]; rfl⟩
  rw [filter_warning?_script h] at hkept
  obtain ⟨told, htold, rfl⟩ := List.mem_map.mp hkept
  cases hmessage
  obtain ⟨room, hroom, hkind⟩ := mem_messages htold
  exact ⟨room, hroom, hkind, message, rfl, prints_message_iff hkind⟩

/-- A hall that nothing leads to, and a room that nothing leaves and that is named after a call. -/
theorem echoes_inert_iff_sample :
    let source : Source := ⟨"manor.qb", "\"n\" : \"Hall\" -> \"[boot(me)]\"\n"⟩
    ∃ builder commands, buildSources {} [source] = .ok builder ∧
      generate .noSideEffects builder.grid = .ok commands ∧
      commands.filterMap (·.warning?) =
        ["Creating room with no exits: [boot(me)]", "Created room with no entrances: Hall"] ∧
      ∀ command ∈ commands, ∀ message, command.warning? = some message →
        ∃ room ∈ buildOrder builder.grid.promote.1,
          (message = noExits room ∨ message = noEntrances room) ∧
          ∃ written, command.render = "think WARNING: " ++ written ∧
            (Prints written.toList message.toList ↔ room.name = "Hall") := by
  intro source
  have hseen : (buildSources {} [source]).map (fun builder : Builder =>
      decide ((∀ room ∈ buildOrder builder.grid.promote.1,
          room.name = "Hall" ↔ Plain room.name.toList) ∧
        (generate .noSideEffects builder.grid).map (·.filterMap (·.warning?)) =
          .ok ["Creating room with no exits: [boot(me)]",
            "Created room with no entrances: Hall"])) = .ok true := by
    decide +kernel
  obtain ⟨builder, hbuild, hnames, hwarned⟩ := Builder.exists_of_decide_applyAll hseen
  obtain ⟨commands, hcommands, hechoes⟩ := echoes_inert_iff hbuild .noSideEffects
  rw [hcommands] at hwarned
  refine ⟨builder, commands, hbuild, hcommands, Except.ok.inj hwarned, ?_⟩
  intro command hcommand message hmessage
  obtain ⟨room, hroom, hkind, written, hrender, hprints⟩ :=
    hechoes command hcommand message hmessage
  exact ⟨room, hroom, hkind, written, hrender, hprints.trans (hnames room hroom).symm⟩

/-- A room named after a call: the echo of its warning holds the call, whatever the mode. -/
theorem echo_holds_call :
    let source : Source := ⟨"manor.qb", "\"n\" : \"Hall\" -> \"[boot(me)]\"\n"⟩
    ∃ builder, buildSources {} [source] = .ok builder ∧
      ∀ mode, ∃ commands, generate mode builder.grid = .ok commands ∧
        ∃ command ∈ commands,
          command.warning? = some "Creating room with no exits: [boot(me)]" ∧
          command.render = "think WARNING: Creating room with no exits: [boot(me)]" ∧
          ¬ ∃ written, command.render = "think WARNING: " ++ written ∧
            Prints written.toList "Creating room with no exits: [boot(me)]".toList := by
  intro source
  have hseen : (buildSources {} [source]).map (fun builder => messages builder.grid.promote.1) =
      .ok ["Creating room with no exits: [boot(me)]", "Created room with no entrances: Hall"] := by
    decide +kernel
  obtain ⟨builder, hbuild, hmessages⟩ := Builder.exists_of_map_applyAll hseen
  have h : builder.grid.Coherent := (Builder.coherent_of_applyAll hbuild).grid
  refine ⟨builder, hbuild, ?_⟩
  intro mode
  have hwarned := filter_warning?_script h mode
  rw [hmessages] at hwarned
  refine ⟨_, generate_eq_script h mode, .warn "Creating room with no exits: [boot(me)]", ?_, rfl,
    by decide +kernel, ?_⟩
  · apply List.mem_of_mem_filter
    rw [hwarned]
    exact List.mem_cons_self
  · rintro ⟨written, hrender, hprints⟩
    obtain rfl : "Creating room with no exits: [boot(me)]" = written :=
      String.append_right_inj _ |>.mp hrender
    have hcall : '[' ∈ "Creating room with no exits: [boot(me)]".toList := by decide +kernel
    exact prints_self_iff.mp hprints '[' hcall (by decide)

end Script

end Gridwright
