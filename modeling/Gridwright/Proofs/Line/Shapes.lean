import Gridwright.Proofs.Classifier.Descriptions
import Gridwright.Proofs.Line.Hops
import Gridwright.Proofs.Line.Quotations
import Mathlib.Data.Option.Basic

/-!
# What the readers of a line take for a label

A label is found in many ways: as all that is left of a line, in front of something else, between
quotes, or by the search for hops.  However it is found, it starts with a quote, a later quote
closes it, and behind that one there is at most a suffix, which holds no blank character and starts
with neither part of an arrow (`IsLabel`).  No label holds a line feed, even if the line does.
-/

namespace Gridwright.Line

open Gridwright.Text

/-- A quoted name, and a suffix that may be empty. -/
def IsLabel (text : List Char) : Prop :=
  ∃ name suffix, text = '"' :: (name ++ '"' :: suffix) ∧ LabelParts name suffix

theorem LabelParts.nil : LabelParts [] [] := ⟨by simp, by simp, by simp⟩

theorem LabelParts.of_suffix {c : Char} {run : List Char} (hc : startsSuffix c = true)
    (hrun : ∀ d ∈ run, isBlank d = false) : LabelParts [] (c :: run) :=
  ⟨by simp, List.forall_mem_cons.mpr ⟨not_isBlank_of_startsSuffix hc, hrun⟩, by simpa using hc⟩

theorem LabelParts.cons {name suffix : List Char} (h : LabelParts name suffix) {c : Char}
    (hc : c ≠ '\n') : LabelParts (c :: name) suffix :=
  ⟨List.not_mem_cons_of_ne_of_not_mem (Ne.symm hc) h.single, h.solid, h.starts⟩

theorem isLabel_quotedLabel {body : List Char} (h : '\n' ∉ body) :
    IsLabel (quotedLabel body).text.toList :=
  ⟨body, [], by simp [quotedLabel], h, by simp, by simp⟩

/-! ### Labels at the end of a line -/

namespace ClosingLabel

theorem blank_ahead (s : List Char) : (ahead s).blank = isBlankText s := by
  induction s with
  | nil => rfl
  | cons c s ih =>
      rw [isBlankText, List.all_cons, ← isBlankText, ← ih]
      rfl

theorem split_of_solid_ahead {s : List Char} (h : (ahead s).solid = true) :
    ∃ run gap, s = run ++ gap ∧ (∀ c ∈ run, isBlank c = false) ∧ isBlankText gap = true := by
  induction s with
  | nil => exact ⟨[], [], rfl, by simp, rfl⟩
  | cons c s ih =>
      have hstep : (ahead (c :: s)).solid =
          ((ahead (c :: s)).blank || (!isBlank c && (ahead s).solid)) := rfl
      rw [hstep, blank_ahead, Bool.or_eq_true, Bool.and_eq_true, Bool.not_eq_true'] at h
      rcases h with hblank | ⟨hc, hsolid⟩
      · exact ⟨[], c :: s, rfl, by simp, hblank⟩
      · obtain ⟨run, gap, rfl, hrun, hgap⟩ := ih hsolid
        exact ⟨c :: run, gap, rfl, List.forall_mem_cons.mpr ⟨hc, hrun⟩, hgap⟩

theorem split_of_suffix_ahead {s : List Char} (h : (ahead s).suffix = true) :
    ∃ suffix gap, s = suffix ++ gap ∧ LabelParts [] suffix ∧ isBlankText gap = true := by
  cases s with
  | nil => exact ⟨[], [], rfl, .nil, rfl⟩
  | cons c s =>
      have hstep : (ahead (c :: s)).suffix =
          ((ahead (c :: s)).blank || (startsSuffix c && (ahead s).solid)) := rfl
      rw [hstep, blank_ahead, Bool.or_eq_true, Bool.and_eq_true] at h
      rcases h with hblank | ⟨hc, hsolid⟩
      · exact ⟨[], c :: s, rfl, .nil, hblank⟩
      · obtain ⟨run, gap, rfl, hrun, hgap⟩ := split_of_solid_ahead hsolid
        exact ⟨c :: run, gap, rfl, .of_suffix hc hrun, hgap⟩

/-- What closes a label leaves a name, a suffix and a gap. -/
theorem split_of_closes_ahead {s : List Char} (h : (ahead s).closes = true) :
    ∃ name suffix gap, s = name ++ '"' :: (suffix ++ gap) ∧ LabelParts name suffix ∧
      isBlankText gap = true := by
  induction s with
  | nil => cases h
  | cons c s ih =>
      have hstep : (ahead (c :: s)).closes =
          ((c != '\n' && (ahead s).closes) || (c == '"' && (ahead s).suffix)) := rfl
      rw [hstep, Bool.or_eq_true, Bool.and_eq_true, Bool.and_eq_true, bne_iff_ne, beq_iff_eq] at h
      rcases h with ⟨hfeed, hcloses⟩ | ⟨rfl, hsuffix⟩
      · obtain ⟨name, suffix, gap, rfl, hparts, hgap⟩ := ih hcloses
        exact ⟨c :: name, suffix, gap, rfl, hparts.cons hfeed, hgap⟩
      · obtain ⟨suffix, gap, rfl, hparts, hgap⟩ := split_of_suffix_ahead hsuffix
        exact ⟨[], suffix, gap, rfl, hparts, hgap⟩

theorem isLabel_trimEnd {s : List Char} (h : (ahead s).closes = true) :
    IsLabel (trimEnd ('"' :: s)) := by
  obtain ⟨name, suffix, gap, rfl, hparts, hgap⟩ := split_of_closes_ahead h
  refine ⟨name, suffix, ?_, hparts⟩
  have hend : trimEnd (suffix ++ gap) = suffix := by
    have hgap' : ∀ c ∈ gap.reverse, isBlank c = true :=
      fun c hc => List.all_eq_true.mp hgap c (List.mem_reverse.mp hc)
    rw [trimEnd, List.reverse_append, List.dropWhile_append_of_pos hgap']
    exact trimEnd_eq_self_iff.mpr fun c hc => hparts.solid c (List.mem_of_getLast? hc)
  rw [← List.cons_append, trimEnd_append_cons not_isBlank_quote, hend, List.cons_append]

end ClosingLabel

theorem isLabel_of_closingLabel? {s text : List Char} (h : closingLabel? s = some text) :
    IsLabel text := by
  cases s with
  | nil => cases h
  | cons c s =>
      rw [closingLabel?] at h
      split at h
      · rename_i hclosed
        cases h
        rw [hclosed.1]
        exact ClosingLabel.isLabel_trimEnd hclosed.2
      · cases h

/-! ### Labels inside a line -/

namespace OpenLabel

variable {α : Type} {starts : Char → Bool} {worth : List Char → Option α}

theorem parts_of_closed_scan (hstarts : ∀ c, starts c = true → startsSuffix c = true)
    {s suffix : List Char} {value : α} (h : (scan starts worth s).closed = some (suffix, value)) :
    LabelParts [] suffix ∧ ∃ rest, worth rest = some value := by
  cases s with
  | nil =>
      obtain ⟨found, hfound, heq⟩ := Option.map_eq_some_iff.mp h
      cases heq
      exact ⟨.nil, [], hfound⟩
  | cons c s =>
      have hstep : (scan starts worth (c :: s)).closed =
          ((if starts c then extend c (scan starts worth s).run else none) <|>
            (worth (c :: s)).map (([], ·))) := rfl
      rw [hstep] at h
      rcases (Option.orElse_eq_some _ _ _).mp h with hmore | ⟨-, hstop⟩
      · split at hmore
        · rename_i hc
          obtain ⟨⟨run, found⟩, hrun, heq⟩ := Option.map_eq_some_iff.mp hmore
          cases heq
          rw [run_scan_eq_pick] at hrun
          obtain ⟨rest, hmem, hworth⟩ := pick_eq_some hrun
          exact ⟨.of_suffix (hstarts c hc) (mem_runEnds.mp hmem).2, rest, hworth⟩
        · cases hmore
      · obtain ⟨found, hfound, heq⟩ := Option.map_eq_some_iff.mp hstop
        cases heq
        exact ⟨.nil, c :: s, hfound⟩

/-- A label inside a line is one whatever may start its suffix, as long as no arrow does. -/
theorem parts_of_body_scan (hstarts : ∀ c, starts c = true → startsSuffix c = true)
    {s text : List Char} {value : α} (h : (scan starts worth s).body = some (text, value)) :
    IsLabel ('"' :: text) ∧ ∃ rest, worth rest = some value := by
  induction s generalizing text with
  | nil => cases h
  | cons c s ih =>
      have hstep : (scan starts worth (c :: s)).body =
          ((if c = '"' then extend c (scan starts worth s).closed else none) <|>
            (if c = '\n' then none else extend c (scan starts worth s).body)) := rfl
      rw [hstep] at h
      rcases (Option.orElse_eq_some _ _ _).mp h with hclosed | ⟨-, hinside⟩
      · split at hclosed
        · rename_i hquote
          obtain ⟨⟨suffix, found⟩, hfound, heq⟩ := Option.map_eq_some_iff.mp hclosed
          cases heq
          obtain ⟨hparts, hrest⟩ := parts_of_closed_scan hstarts hfound
          exact ⟨⟨[], suffix, by rw [hquote, List.nil_append], hparts⟩, hrest⟩
        · cases hclosed
      · split at hinside
        · cases hinside
        · rename_i hfeed
          obtain ⟨⟨tail, found⟩, hfound, heq⟩ := Option.map_eq_some_iff.mp hinside
          cases heq
          obtain ⟨⟨name, suffix, htext, hparts⟩, hrest⟩ := ih hfound
          cases htext
          exact ⟨⟨c :: name, suffix, rfl, hparts.cons hfeed⟩, hrest⟩

end OpenLabel

theorem isLabel_of_description? {s room text : List Char}
    (h : description? s = some (room, text)) : IsLabel room := by
  have hstarts : ∀ c, Description.startsDescribed c = true → startsSuffix c = true := by
    intro c hc
    exact (Bool.and_eq_true_iff.mp hc).1
  cases s with
  | nil => cases h
  | cons c s =>
      rw [description?] at h
      split at h
      · rename_i hquote
        obtain ⟨⟨inner, found⟩, hbody, heq⟩ := Option.map_eq_some_iff.mp h
        cases heq
        rw [Description.label_ahead] at hbody
        rw [hquote]
        exact (OpenLabel.parts_of_body_scan hstarts hbody).1
      · cases h

/-- The exit of a link line and its first room. -/
theorem isLabel_of_link? {s exit first hops : List Char}
    (h : link? s = some (exit, first, hops)) : IsLabel exit ∧ IsLabel first := by
  cases s with
  | nil => cases h
  | cons c s =>
      rw [link?] at h
      split at h
      · rename_i hquote
        obtain ⟨⟨exit, first, behind⟩, hexit, heq⟩ := Option.map_eq_some_iff.mp h
        cases heq
        obtain ⟨⟨inner, first, behind⟩, hbody, heq⟩ := Option.map_eq_some_iff.mp hexit
        cases heq
        rw [Link.exit_ahead] at hbody
        obtain ⟨hlabel, rest, hcolon⟩ := OpenLabel.parts_of_body_scan (fun _ hc => hc) hbody
        refine ⟨hquote ▸ hlabel, ?_⟩
        obtain ⟨gap, behind', hgap, rfl⟩ := Link.startsWithSign_colon.eq_append
          (Option.ne_none_iff_exists'.mpr ⟨_, hcolon⟩)
        rw [Link.exitWorth, Link.startsWithSign_colon.append hgap] at hcolon
        obtain ⟨gap', inner', hgap', rfl⟩ := Link.startsWithSign_path.eq_append
          (Option.ne_none_iff_exists'.mpr ⟨_, hcolon⟩)
        rw [Link.startsWithSign_path.append hgap', Link.first_ahead] at hcolon
        obtain ⟨⟨text, found⟩, hfirst, heq⟩ := Option.map_eq_some_iff.mp hcolon
        cases heq
        exact (OpenLabel.parts_of_body_scan (fun _ hc => hc) hfirst).1
      · cases h

/-! ### Quoted texts -/

namespace QuotedPair

/-- No text that has been found holds a line feed. -/
structure Ahead.SingleLine (ahead : Ahead) : Prop where
  closing : ∀ text ∈ ahead.closing, '\n' ∉ text
  second : ∀ text ∈ ahead.second, '\n' ∉ text
  both : ∀ texts ∈ ahead.both, '\n' ∉ texts.1 ∧ '\n' ∉ texts.2

theorem Ahead.SingleLine.step {ahead : Ahead} (h : ahead.SingleLine) (c : Char) :
    (ahead.step c).SingleLine := by
  constructor
  · intro text htext
    rcases (Option.orElse_eq_some _ _ _).mp (Option.mem_def.mp htext) with hmore | ⟨-, hstart⟩
    · split at hmore
      · cases hmore
      · rename_i hfeed
        obtain ⟨tail, htail, rfl⟩ := Option.map_eq_some_iff.mp hmore
        exact List.not_mem_cons_of_ne_of_not_mem (Ne.symm hfeed) (h.closing tail htail)
    · split at hstart <;> cases hstart
      exact List.not_mem_nil
  · intro text htext
    simp only [Ahead.step] at htext
    split at htext
    · exact h.second text htext
    · split at htext
      · exact h.closing text htext
      · cases htext
  · intro texts htexts
    rcases (Option.orElse_eq_some _ _ _).mp (Option.mem_def.mp htexts) with hmore | ⟨-, hstart⟩
    · split at hmore
      · cases hmore
      · rename_i hfeed
        obtain ⟨rest, hrest, rfl⟩ := Option.map_eq_some_iff.mp hmore
        obtain ⟨hfirst, hsecond⟩ := h.both rest hrest
        exact ⟨List.not_mem_cons_of_ne_of_not_mem (Ne.symm hfeed) hfirst, hsecond⟩
    · split at hstart
      · obtain ⟨text, htext, rfl⟩ := Option.map_eq_some_iff.mp hstart
        exact ⟨List.not_mem_nil, h.second text htext⟩
      · cases hstart

theorem singleLine_ahead (s : List Char) : (ahead s).SingleLine := by
  induction s with
  | nil => constructor <;> simp [Ahead.nil]
  | cons c s ih => exact ih.step c

end QuotedPair

theorem single_of_keywordPair? {word : String} {s first second : List Char}
    (h : keywordPair? word s = some (first, second)) : '\n' ∉ first ∧ '\n' ∉ second := by
  have hpair : ∀ rest, quotedPair? rest = some (first, second) →
      '\n' ∉ first ∧ '\n' ∉ second := by
    intro rest hrest
    cases rest with
    | nil => cases hrest
    | cons c rest =>
        rw [quotedPair?] at hrest
        split at hrest
        · exact (QuotedPair.singleLine_ahead rest).both _ hrest
        · cases hrest
  obtain ⟨rest, -, hrest⟩ := Option.bind_eq_some_iff.mp h
  split at hrest
  · exact hpair _ hrest
  · exact hpair _ hrest

/-! ### An exit and its room -/

namespace ExitFrom

/-- The ends of the line that have been found to be the room. -/
def Ahead.rooms (ahead : Ahead) : List (Option (List Char)) :=
  [ahead.room, ahead.gapRoom, ahead.m, ahead.om, ahead.rom, ahead.part, ahead.gapPart]

/-- A room is found at its opening quote, and is handed on from there. -/
theorem Ahead.mem_rooms_step {ahead : Ahead} {c : Char} {room : List Char}
    (h : some room ∈ (ahead.step c).rooms) :
    some room ∈ ahead.rooms ∨ room = c :: ahead.rest ∧ c = '"' ∧ ahead.label.closes = true := by
  simp only [rooms, step, List.mem_cons, List.not_mem_nil, or_false] at h ⊢
  rcases h with h | h | h | h | h | h | h <;> grind

theorem isLabel_of_mem_rooms {s room : List Char} (h : some room ∈ (ahead s).rooms) :
    IsLabel (trimEnd room) := by
  induction s with
  | nil => simp [Ahead.rooms, Ahead.nil] at h
  | cons c s ih =>
      rw [ahead_cons] at h
      rcases Ahead.mem_rooms_step h with hknown | ⟨rfl, rfl, hcloses⟩
      · exact ih hknown
      · rw [label_ahead] at hcloses
        rw [rest_ahead]
        exact ClosingLabel.isLabel_trimEnd hcloses

theorem labels_of_exit_ahead {s exit room : List Char} (h : (ahead s).exit = some (exit, room)) :
    '\n' ∉ exit ∧ IsLabel (trimEnd room) := by
  induction s generalizing exit with
  | nil => cases h
  | cons c s ih =>
      rcases (Option.orElse_eq_some _ _ _).mp h with hmore | ⟨-, hstart⟩
      · split at hmore
        · cases hmore
        · rename_i hfeed
          obtain ⟨⟨tail, found⟩, hfound, heq⟩ := Option.map_eq_some_iff.mp hmore
          cases heq
          obtain ⟨htail, hroom⟩ := ih hfound
          exact ⟨List.not_mem_cons_of_ne_of_not_mem (Ne.symm hfeed) htail, hroom⟩
      · split at hstart
        · obtain ⟨found, hfound, heq⟩ := Option.map_eq_some_iff.mp hstart
          cases heq
          have hroom : some room ∈ (ahead s).rooms := by
            simp only [Ahead.rooms, ahead, hfound, List.mem_cons, true_or, or_true]
          exact ⟨List.not_mem_nil, isLabel_of_mem_rooms hroom⟩
        · cases hstart

end ExitFrom

theorem labels_of_exitFrom? {s exit room : List Char} (h : exitFrom? s = some (exit, room)) :
    '\n' ∉ exit ∧ IsLabel room := by
  cases s with
  | nil => cases h
  | cons c s =>
      rw [exitFrom?] at h
      split at h
      · obtain ⟨⟨exit, room⟩, hfound, heq⟩ := Option.map_eq_some_iff.mp h
        cases heq
        exact ExitFrom.labels_of_exit_ahead hfound
      · cases h

/-! ### Hops -/

theorem StartsWithHop.isLabel {s rest : List Char} {hop : Hop}
    (h : StartsWithHop PlainParts s hop rest) : IsLabel hop.room.text.toList := by
  obtain @⟨gap, name, suffix, _, twoWay, hgap, hparts⟩ := h
  exact ⟨name, suffix, String.toList_ofList, hparts.toLabelParts⟩

theorem isLabel_of_mem_hops {s : List Char} {hop : Hop} (h : hop ∈ hops s) :
    IsLabel hop.room.text.toList := by
  fun_induction hops s with
  | case1 => cases h
  | case2 c s found rest hfound ih =>
      rcases List.mem_cons.mp h with rfl | hrest
      · exact (hop?_eq_some_iff.mp hfound).isLabel
      · exact ih hrest
  | case3 c s hnone ih => exact ih h

end Gridwright.Line
