import Gridwright.Proofs.Builder.Outline
import Gridwright.Proofs.Classifier.Layout
import Gridwright.Proofs.Compile.Outcome

/-!
# The layout of a source

A source may be laid out with blank lines and comments wherever its author likes: the outcome
of a compilation stays the same.  The one place where a line cannot be put without a trace is
between two literal lines of a block, since what divides their texts is that they follow each
other directly.
-/

namespace Gridwright

open Gridwright.Text

/-! ### Sources made of lines -/

/-- The source that consists of the given lines. -/
def Source.ofLines (name : String) (lines : List String) : Source :=
  ⟨name, "\n".intercalate lines⟩

namespace Classifier

theorem classify_congr {text other : String} (h : trimEnd other.toList = trimEnd text.toList)
    (classifier : Classifier) (number : Nat) :
    classifier.classify number other = classifier.classify number text := by
  simp only [classify, SourceLine.of, h]

/-- Blank characters at the ends of lines do not count. -/
theorem run_map {change : String → String}
    (hchange : ∀ text, trimEnd (change text).toList = trimEnd text.toList)
    (classifier : Classifier) (number : Nat) (lines : List String) :
    classifier.actions number (lines.map change) = classifier.actions number lines ∧
      classifier.after number (lines.map change) = classifier.after number lines := by
  induction lines generalizing classifier number with
  | nil => exact ⟨rfl, rfl⟩
  | cons text rest ih =>
      simp only [List.map_cons, actions, after, classify_congr (hchange text), ih, and_self]

end Classifier

theorem Source.lines_ofLines (name : String) {front : List String} {last : String}
    (hfree : ∀ line ∈ front ++ [last], '\n' ∉ line.toList) :
    (Source.ofLines name (front ++ [last])).lines =
      front.map (fun text => String.ofList (dropReturn text.toList)) ++
        if last = "" then [] else [last] := by
  have hchars : ∀ text ∈ (front ++ [last]).map String.toList, '\n' ∉ text := by
    intro text htext
    obtain ⟨line, hline, rfl⟩ := List.mem_map.mp htext
    exact hfree line hline
  have htext : (Source.ofLines name (front ++ [last])).text.toList =
      ['\n'].intercalate ((front ++ [last]).map String.toList) := String.toList_intercalate
  rw [Source.lines, htext, lines_intercalate hchars (by simp)]
  by_cases hlast : last = ""
  · simp [hlast]
  · simp [hlast]

/-- An empty last line is no line of a source, and an empty line asks for nothing. -/
theorem Source.effects_ofLines (name : String) {lines : List String}
    (hfree : ∀ line ∈ lines, '\n' ∉ line.toList) :
    Builder.effects (Source.ofLines name lines).directives = Classifier.effects {} 1 lines := by
  rw [Source.effects_directives]
  rcases List.eq_nil_or_concat' lines with rfl | ⟨front, last, rfl⟩
  · rfl
  · have hreturn : ∀ text : String,
        trimEnd (String.ofList (dropReturn text.toList)).toList = trimEnd text.toList := by
      intro text
      rw [String.toList_ofList, trimEnd_dropReturn]
    obtain ⟨hactions, hafter⟩ := Classifier.run_map hreturn {} 1 front
    have hlast : ∀ (classifier : Classifier) number,
        classifier.effects number (if last = "" then [] else [last]) =
          classifier.effects number [last] := by
      intro classifier number
      split
      · rename_i hempty
        rw [Classifier.effects_quiet_cons (.blank (by simp [hempty, Line.isBlankText]))
          (by simp [hempty])]
        rfl
      · rfl
    rw [Source.lines_ofLines name hfree, Classifier.effects_append, Classifier.effects_append,
      hlast, hafter, List.length_map]
    exact congrArg (·.filter (· ≠ .nop) ++ _) hactions

/-! ### Lines between others -/

/-- The room or exit that the code of a block is for. -/
def Block.owner : Block → Owner
  | .inRoom room => .room room
  | .onExit room exit => .exit room exit.key

theorem Block.getD_textFor?_buffer (block : Block) (text : String) (owner : Owner) :
    ((block.buffer text).textFor? owner).getD "" = if owner = block.owner then text else "" := by
  cases block with
  | inRoom room => exact Action.getD_textFor?_bufferRoom owner room text
  | onExit room exit => exact Action.getD_textFor?_bufferExit owner room exit text

/-- Two builds that come to the same, but for one place in the code of a block: the first has a
line break in front of a text there, and the second has not. -/
def LosesBreak (block : Block) (text : String) :
    Except Error Builder → Except Error Builder → Prop
  | .ok builder, .ok other =>
    other.outline = builder.outline ∧
      ∀ owner, ∃ front back,
        builder.grid.codeOf owner =
          front ++ (if owner = block.owner then "%r" ++ text else "") ++ back ∧
        other.grid.codeOf owner = front ++ (if owner = block.owner then text else "") ++ back
  | .error error, .error other => other.cause = error.cause
  | _, _ => False

theorem losesBreak_of_effects {options : BuildOptions} {block : Block} {text : String}
    {start rest : List Action} {directives other : List Directive}
    (hfirst : Builder.effects directives = start ++ block.buffer ("%r" ++ text) :: rest)
    (hsecond : Builder.effects other = start ++ block.buffer text :: rest) :
    LosesBreak block text (Builder.applyAll options {} directives)
      (Builder.applyAll options {} other) := by
  have hlook : (Builder.effects directives).map Action.outline =
      (Builder.effects other).map Action.outline := by
    rw [hfirst, hsecond, List.map_append, List.map_append, List.map_cons, List.map_cons]
    cases block <;> rfl
  have hseen : Builder.seen Builder.outline (Builder.applyAll options {} directives) =
      Builder.seen Builder.outline (Builder.applyAll options {} other) :=
    Builder.seen_applyAll Builder.kept_outline {} hlook
  cases hrun : Builder.applyAll options {} directives with
  | error error =>
      cases hother : Builder.applyAll options {} other with
      | error error' =>
          rw [hrun, hother] at hseen
          exact (Except.error.inj hseen).symm
      | ok builder =>
          rw [hrun, hother] at hseen
          cases hseen
  | ok builder =>
      cases hother : Builder.applyAll options {} other with
      | error error =>
          rw [hrun, hother] at hseen
          cases hseen
      | ok builder' =>
          rw [hrun, hother] at hseen
          refine ⟨(Except.ok.inj hseen).symm, ?_⟩
          intro owner
          refine ⟨String.join (start.filterMap (·.textFor? owner)),
            String.join (rest.filterMap (·.textFor? owner)), ?_, ?_⟩
          · rw [Builder.codeOf_of_applyAll hrun, Builder.textFor_of_effects hfirst,
              Block.getD_textFor?_buffer]
          · rw [Builder.codeOf_of_applyAll hother, Builder.textFor_of_effects hsecond,
              Block.getD_textFor?_buffer]

/-- Whatever the lines of a source, the position and the options: a line that asks for nothing
where it is put leaves the outcome as it is.  Only between two literal lines of a block that
followed each other directly, the text of the second one loses its line break, and nothing else
changes in what the source asks for and in what is built. -/
theorem outcome_insert_quiet (options : CompileOptions) (name : String)
    (before later : List String) (line : String)
    (hfree : ∀ text ∈ before ++ line :: later, '\n' ∉ text.toList)
    (hquiet : Quiet (Classifier.after {} 1 before).place line) :
    let whole := Source.ofLines name (before ++ later)
    let wider := Source.ofLines name (before ++ line :: later)
    ((∀ block behind, ¬ BetweenLiterals block behind before later) →
      outcome options [wider] = outcome options [whole]) ∧
    ∀ block behind, BetweenLiterals block behind before later →
      let text := Softcode.escape behind
      (∃ start rest,
        Builder.effects whole.directives = start ++ block.buffer ("%r" ++ text) :: rest ∧
        Builder.effects wider.directives = start ++ block.buffer text :: rest) ∧
      LosesBreak block text (buildSources options.build [whole])
        (buildSources options.build [wider]) := by
  intro whole wider
  have hline : '\n' ∉ line.toList := hfree line (by simp)
  have hwhole : Builder.effects whole.directives = Classifier.effects {} 1 (before ++ later) :=
    Source.effects_ofLines name fun text htext => hfree text (by simp at htext ⊢; tauto)
  have hwider : Builder.effects wider.directives =
      Classifier.effects {} 1 (before ++ line :: later) := Source.effects_ofLines name hfree
  have hone : ∀ source : Source, directivesOf [source] = source.directives := by
    simp [directivesOf]
  constructor
  · intro hapart
    apply outcome_of_effects
    rw [hone, hone, hwider, hwhole, Classifier.effects_insert hquiet hline hapart]
  · intro block behind hbetween text
    obtain ⟨rest, hdirect, hmoved⟩ :=
      Classifier.effects_insert_between hquiet hline hbetween
    have hfirst := hwhole.trans hdirect
    have hsecond := hwider.trans hmoved
    refine ⟨⟨_, rest, hfirst, hsecond⟩, ?_⟩
    simp only [buildSources, hone]
    exact losesBreak_of_effects hfirst hsecond

/-- A comment behind a block, and one between two literal lines inside of it. -/
theorem outcome_insert_quiet_sample :
    let opening := ["\"out\" : \"Hall\" -> \"Yard\"", "IN \"Hall\""]
    let before := opening ++ ["> one"]
    let later := ["> two", "ENDIN"]
    outcome {} [Source.ofLines "grid" ((before ++ later) ++ ["# done"])] =
        outcome {} [Source.ofLines "grid" ((before ++ later) ++ [])] ∧
      LosesBreak (.inRoom ⟨"\"Hall\""⟩) (Softcode.escape " two")
        (buildSources {} [Source.ofLines "grid" (before ++ later)])
        (buildSources {} [Source.ofLines "grid" (before ++ "  @@ more" :: later)]) := by
  intro opening before later
  have houtside : (Classifier.after {} 1 (before ++ later)).place = .outside := by decide +kernel
  have hopened : (Classifier.after {} 1 opening).place = .inside (.inRoom ⟨"\"Hall\""⟩) := by
    decide +kernel
  have hinside : (Classifier.after {} 1 before).place = .inside (.inRoom ⟨"\"Hall\""⟩) := by
    decide +kernel
  have hcomment : Quiet (Classifier.after {} 1 (before ++ later)).place "# done" := by
    rw [houtside]
    exact .comment (by decide)
  have hignored : Quiet (Classifier.after {} 1 before).place "  @@ more" := by
    rw [hinside]
    exact .ignored (by decide)
  have hone : literalText? "> one" = some " one" := by decide +kernel
  have htwo : literalText? "> two" = some " two" := by decide +kernel
  constructor
  · refine (outcome_insert_quiet {} "grid" (before ++ later) [] "# done" (by decide) hcomment).1 ?_
    intro block behind hbetween
    generalize before ++ later = lines, hnil : ([] : List String) = rest at hbetween
    cases hbetween
    cases hnil
  · have hbetween : BetweenLiterals (.inRoom ⟨"\"Hall\""⟩) " two" before later :=
      .intro hopened hone htwo
    exact ((outcome_insert_quiet {} "grid" before later "  @@ more" (by decide) hignored).2 _ _
      hbetween).2

end Gridwright
