import Gridwright.Proofs.Line.Labels

/-!
# Quoted texts at the end of a line

`ALIAS`, `REVERSE` and `ON` lines may be divided in several ways when their texts hold quotes.
Written texts hold none, and then there is one way only: the readers find no later place to
divide the line, because a place to divide it needs quotes behind it.
-/

namespace Gridwright.Line

open Gridwright.Text

/-! ### Two quoted texts -/

namespace QuotedPair

theorem ahead_second (quoted : QuotedText) :
    (ahead (quoted.chars ++ ['"'])).closing = some quoted.chars ∧
      (ahead (quoted.chars ++ ['"'])).second = none ∧
        (ahead (quoted.chars ++ ['"'])).both = none := by
  have hchars : ∀ chars : List Char, (∀ c ∈ chars, c ≠ '"' ∧ c ≠ '\n') →
      (ahead (chars ++ ['"'])).closing = some chars ∧
        (ahead (chars ++ ['"'])).second = none ∧ (ahead (chars ++ ['"'])).both = none := by
    intro chars hplain
    induction chars with
    | nil => exact ⟨rfl, rfl, rfl⟩
    | cons c chars ih =>
        obtain ⟨hclosing, hsecond, hboth⟩ :=
          ih fun d hd => hplain d (List.mem_cons_of_mem c hd)
        obtain ⟨hquote, hfeed⟩ := hplain c List.mem_cons_self
        simp [Ahead.step, hclosing, hsecond, hboth, hquote, hfeed]
  exact hchars quoted.chars quoted.plain

theorem both_ahead (first second : QuotedText) :
    (ahead (first.chars ++ '"' :: ' ' :: '"' :: (second.chars ++ ['"']))).both =
      some (first.chars, second.chars) := by
  obtain ⟨hclosing, hsecond, hboth⟩ := ahead_second second
  have hchars : ∀ chars : List Char, (∀ c ∈ chars, c ≠ '"' ∧ c ≠ '\n') →
      (ahead (chars ++ '"' :: ' ' :: '"' :: (second.chars ++ ['"']))).both =
        some (chars, second.chars) := by
    intro chars hplain
    induction chars with
    | nil =>
        simp [Ahead.step, hclosing, hsecond, hboth, isBlank_space, not_isBlank_quote]
    | cons c chars ih =>
        have hrest := ih fun d hd => hplain d (List.mem_cons_of_mem c hd)
        simp [Ahead.step, hrest, (hplain c List.mem_cons_self).2]
  exact hchars first.chars first.plain

end QuotedPair

theorem keywordPair?_written (word : String) (first second : QuotedText) :
    keywordPair? word (word.toList ++ ' ' :: (first.written ++ " " ++ second.written).toList) =
      some (first.chars, second.chars) := by
  have htext : (first.written ++ " " ++ second.written).toList =
      '"' :: (first.chars ++ '"' :: ' ' :: '"' :: (second.chars ++ ['"'])) := by
    simp [QuotedText.toList_written]
  rw [keywordPair?, keywordAnyCase?_append, Option.bind_some, htext,
    trimStart_cons_of_blank isBlank_space, trimStart_cons_of_solid not_isBlank_quote]
  exact QuotedPair.both_ahead first second

/-! ### An exit and a room -/

namespace ExitFrom

/-- No label and no `FROM` has been found yet. -/
structure Ahead.Idle (ahead : Ahead) : Prop where
  room : ahead.room = none
  gapRoom : ahead.gapRoom = none
  m : ahead.m = none
  om : ahead.om = none
  rom : ahead.rom = none
  part : ahead.part = none
  gapPart : ahead.gapPart = none
  exit : ahead.exit = none

theorem Ahead.Idle.step {ahead : Ahead} (h : ahead.Idle) {c : Char}
    (hc : c = '"' → ahead.label.closes = false) : (ahead.step c).Idle := by
  have hlabel : ¬ (c = '"' ∧ ahead.label.closes = true) := by
    rintro ⟨hquote, hcloses⟩
    rw [hc hquote] at hcloses
    cases hcloses
  constructor <;>
    simp [Ahead.step, extend, h.room, h.gapRoom, h.m, h.om, h.rom, h.part, h.gapPart, h.exit,
      hlabel]

theorem label_ahead (s : List Char) : (ahead s).label = ClosingLabel.ahead s := by
  induction s with
  | nil => rfl
  | cons c s ih => rw [ahead_cons, ClosingLabel.ahead_cons, ← ih]; rfl

theorem rest_ahead (s : List Char) : (ahead s).rest = s := by
  induction s with
  | nil => rfl
  | cons c s ih => rw [ahead_cons, Ahead.step, ih]

theorem idle_ahead_of_no_quote {s : List Char} (h : '"' ∉ s) (rest : List Char)
    (hrest : (ahead rest).Idle) : (ahead (s ++ rest)).Idle := by
  induction s with
  | nil => exact hrest
  | cons c s ih =>
      rw [List.mem_cons, not_or] at h
      exact (ih h.2).step fun hc => absurd hc.symm h.1

/-- The room of an `ON` line holds no place to divide the line at: its quotes are too few. -/
theorem idle_ahead_inner (room : WrittenLabel) : (ahead room.inner).Idle := by
  have hsuffix : '"' ∉ room.suffix := fun hmem => (room.solid '"' hmem).2 rfl
  have hname : '"' ∉ room.name.chars := fun hmem => (room.name.plain '"' hmem).1 rfl
  have hend : (ahead room.suffix).Idle := by
    have hnil : (ahead []).Idle := by constructor <;> rfl
    simpa using idle_ahead_of_no_quote hsuffix [] hnil
  refine idle_ahead_of_no_quote hname _ (hend.step ?_)
  intro _
  rw [label_ahead]
  exact ClosingLabel.closes_ahead_of_no_quote hsuffix

/-- What is known in front of the keyword. -/
theorem ahead_part (room : WrittenLabel) :
    (ahead (" FROM ".toList ++ '"' :: room.inner)).gapPart = some ('"' :: room.inner) ∧
      (ahead (" FROM ".toList ++ '"' :: room.inner)).exit = none := by
  have hidle := idle_ahead_inner room
  have hcloses : (ahead room.inner).label.closes = true := by
    rw [label_ahead]
    exact ClosingLabel.closes_ahead_inner room
  have hroom : (ahead ('"' :: room.inner)).room = some ('"' :: room.inner) := by
    simp [Ahead.step, not_isBlank_quote, hcloses, rest_ahead]
  have hexit : (ahead ('"' :: room.inner)).exit = none := by
    simp [Ahead.step, extend, hidle.exit, hidle.gapPart]
  generalize '"' :: room.inner = s at hroom hexit
  simp [Ahead.step, extend, hroom, hexit, isBlank_space, show isBlank 'F' = false by decide]

theorem exit_ahead (exit : QuotedText) (room : WrittenLabel) :
    (ahead (exit.chars ++ '"' :: (" FROM ".toList ++ '"' :: room.inner))).exit =
      some (exit.chars, '"' :: room.inner) := by
  obtain ⟨hpart, hexit⟩ := ahead_part room
  generalize " FROM ".toList ++ '"' :: room.inner = s at hpart hexit
  have hchars : ∀ chars : List Char, (∀ c ∈ chars, c ≠ '"' ∧ c ≠ '\n') →
      (ahead (chars ++ '"' :: s)).exit = some (chars, '"' :: room.inner) := by
    intro chars hplain
    induction chars with
    | nil => simp [Ahead.step, extend, hpart, hexit]
    | cons c chars ih =>
        have hrest := ih fun d hd => hplain d (List.mem_cons_of_mem c hd)
        simp [Ahead.step, extend, hrest, (hplain c List.mem_cons_self).2]
  exact hchars exit.chars exit.plain

end ExitFrom

theorem exitFrom?_written (exit : QuotedText) (room : WrittenLabel) :
    exitFrom? (exit.written ++ " FROM " ++ room.written).toList =
      some (exit.chars, '"' :: room.inner) := by
  have htext : (exit.written ++ " FROM " ++ room.written).toList =
      '"' :: (exit.chars ++ '"' :: (" FROM ".toList ++ '"' :: room.inner)) := by
    simp [QuotedText.toList_written, WrittenLabel.toList_written]
  rw [htext, exitFrom?, if_pos rfl, ExitFrom.exit_ahead]
  simp only [Option.map_some, room.trimEnd_written]

end Gridwright.Line
