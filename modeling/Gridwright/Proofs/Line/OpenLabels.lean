import Gridwright.Proofs.Line.Labels

/-!
# Where labels inside a line end

A label inside a line may end at any of its quotes, and its suffix may be cut off anywhere.
`OpenLabel.ends` lists the ways to end a label in the order in which they are preferred: an
earlier quote before a later one, and a longer suffix before a shorter one.  Reading the line
from its end finds the first of them that lets the rest of the line be read
(`OpenLabel.body_scan`), and the list holds all of them (`OpenLabel.mem_ends`).  A label that has
no quote to end at early, and whose suffix reaches as far as it can, is preferred to all others
(`OpenLabel.head?_ends`).
-/

namespace Gridwright

open Gridwright.Text

namespace Line

/-! ### Labels in a text -/

theorem not_isBlank_of_startsSuffix {c : Char} (h : startsSuffix c = true) : isBlank c = false := by
  simp only [startsSuffix, Bool.and_eq_true, Bool.not_eq_true'] at h
  exact h.2

/-- What stands between the quotes of a label, and the suffix behind them. -/
structure LabelParts (name suffix : List Char) : Prop where
  single : '\n' ∉ name
  solid : ∀ c ∈ suffix, isBlank c = false
  starts : ∀ c ∈ suffix.head?, startsSuffix c = true

/-- A label that could not end anywhere else: there is no quote inside its name, and its suffix
ends at a blank character or with the line.  If it has none, then no suffix can start there. -/
structure PlainParts (name suffix rest : List Char) : Prop extends LabelParts name suffix where
  quoteFree : '"' ∉ name
  reaches : ∀ c ∈ rest.head?, if suffix = [] then startsSuffix c = false else isBlank c = true

theorem PlainParts.plain {name suffix rest : List Char} (h : PlainParts name suffix rest) :
    ∀ c ∈ name, c ≠ '"' ∧ c ≠ '\n' :=
  fun _ hc => ⟨fun heq => h.quoteFree (heq ▸ hc), fun heq => h.single (heq ▸ hc)⟩

/-- What may stand behind a written label. -/
def Ends (rest : List Char) : Prop := ∀ c ∈ rest.head?, isBlank c = true

namespace OpenLabel

/-! ### The ways to end a label -/

/-- Puts a character in front of the first part of every division of a text. -/
def prepend (c : Char) (ways : List (List Char × List Char)) : List (List Char × List Char) :=
  ways.map fun way => (c :: way.1, way.2)

/-- The ways to end a run without blank characters, the longest first. -/
def runEnds : List Char → List (List Char × List Char)
  | [] => [([], [])]
  | c :: s => (if isBlank c then [] else prepend c (runEnds s)) ++ [([], c :: s)]

/-- The ways to end a suffix, the longest first and the empty one last. -/
def suffixEnds : List Char → List (List Char × List Char)
  | [] => [([], [])]
  | c :: s => (if startsSuffix c then prepend c (runEnds s) else []) ++ [([], c :: s)]

/-- The ways to end a label, given the text behind its opening quote. -/
def ends : List Char → List (List Char × List Char)
  | [] => []
  | c :: s =>
    (if c = '"' then prepend c (suffixEnds s) else []) ++
      if c = '\n' then [] else prepend c (ends s)

theorem mem_prepend {c : Char} {ways : List (List Char × List Char)} {text rest : List Char} :
    (text, rest) ∈ prepend c ways ↔ ∃ tail, text = c :: tail ∧ (tail, rest) ∈ ways := by
  constructor
  · intro h
    obtain ⟨⟨tail, rest'⟩, hmem, heq⟩ := List.mem_map.mp h
    cases heq
    exact ⟨tail, rfl, hmem⟩
  · rintro ⟨tail, rfl, hmem⟩
    exact List.mem_map.mpr ⟨(tail, rest), hmem, rfl⟩

theorem mem_runEnds {s text rest : List Char} :
    (text, rest) ∈ runEnds s ↔ s = text ++ rest ∧ ∀ c ∈ text, isBlank c = false := by
  induction s generalizing text with
  | nil =>
      rw [runEnds, List.mem_singleton, Prod.mk.injEq, List.nil_eq, List.append_eq_nil_iff]
      exact ⟨fun h => ⟨h, by simp [h.1]⟩, fun h => h.1⟩
  | cons c s ih =>
      rw [runEnds, List.mem_append, List.mem_singleton]
      constructor
      · rintro (hmore | hstop)
        · split at hmore
          · cases hmore
          · rename_i hc
            obtain ⟨tail, rfl, hmem⟩ := mem_prepend.mp hmore
            obtain ⟨rfl, hsolid⟩ := ih.mp hmem
            rw [List.forall_mem_cons]
            exact ⟨rfl, by simpa using hc, hsolid⟩
        · cases hstop
          exact ⟨rfl, by simp⟩
      · rintro ⟨heq, hsolid⟩
        cases text with
        | nil => exact .inr (by rw [heq, List.nil_append])
        | cons d tail =>
            obtain ⟨rfl, rfl⟩ := List.cons_eq_cons.mp heq
            rw [List.forall_mem_cons] at hsolid
            rw [hsolid.1, if_neg Bool.false_ne_true]
            exact .inl (mem_prepend.mpr ⟨tail, rfl, ih.mpr ⟨rfl, hsolid.2⟩⟩)

theorem mem_suffixEnds {s suffix rest : List Char} :
    (suffix, rest) ∈ suffixEnds s ↔ s = suffix ++ rest ∧ (∀ c ∈ suffix, isBlank c = false) ∧
      ∀ c ∈ suffix.head?, startsSuffix c = true := by
  cases s with
  | nil =>
      rw [suffixEnds, List.mem_singleton, Prod.mk.injEq, List.nil_eq, List.append_eq_nil_iff]
      exact ⟨fun h => ⟨h, by simp [h.1], by simp [h.1]⟩, fun h => h.1⟩
  | cons c s =>
      rw [suffixEnds, List.mem_append, List.mem_singleton]
      constructor
      · rintro (hmore | hstop)
        · split at hmore
          · rename_i hc
            obtain ⟨tail, rfl, hmem⟩ := mem_prepend.mp hmore
            obtain ⟨rfl, hsolid⟩ := mem_runEnds.mp hmem
            rw [List.forall_mem_cons]
            exact ⟨rfl, ⟨not_isBlank_of_startsSuffix hc, hsolid⟩, by simpa using hc⟩
          · cases hmore
        · cases hstop
          exact ⟨rfl, by simp, by simp⟩
      · rintro ⟨heq, hsolid, hstarts⟩
        cases suffix with
        | nil => exact .inr (by rw [heq, List.nil_append])
        | cons d tail =>
            obtain ⟨rfl, rfl⟩ := List.cons_eq_cons.mp heq
            rw [List.forall_mem_cons] at hsolid
            rw [if_pos (hstarts c rfl)]
            exact .inl (mem_prepend.mpr ⟨tail, rfl, mem_runEnds.mpr ⟨rfl, hsolid.2⟩⟩)

/-- The ways to end a label are those that leave a label in front. -/
theorem mem_ends {s text rest : List Char} :
    (text, rest) ∈ ends s ↔
      ∃ name suffix, text = name ++ '"' :: suffix ∧ s = text ++ rest ∧ LabelParts name suffix := by
  induction s generalizing text with
  | nil =>
      constructor
      · intro h
        cases h
      · rintro ⟨name, suffix, rfl, heq, -⟩
        simp at heq
  | cons c s ih =>
      rw [ends, List.mem_append]
      constructor
      · rintro (hclosed | hinside)
        · split at hclosed
          · rename_i hquote
            subst hquote
            obtain ⟨suffix, rfl, hmem⟩ := mem_prepend.mp hclosed
            obtain ⟨rfl, hsolid, hstarts⟩ := mem_suffixEnds.mp hmem
            exact ⟨[], suffix, rfl, rfl, by simp, hsolid, hstarts⟩
          · cases hclosed
        · split at hinside
          · cases hinside
          · rename_i hfeed
            obtain ⟨tail, rfl, hmem⟩ := mem_prepend.mp hinside
            obtain ⟨name, suffix, rfl, rfl, hparts⟩ := ih.mp hmem
            refine ⟨c :: name, suffix, rfl, rfl, ?_, hparts.solid, hparts.starts⟩
            rw [List.mem_cons, not_or]
            exact ⟨fun heq => hfeed heq.symm, hparts.single⟩
      · rintro ⟨name, suffix, rfl, heq, hparts⟩
        cases name with
        | nil =>
            obtain ⟨rfl, rfl⟩ := List.cons_eq_cons.mp heq
            rw [if_pos rfl]
            exact .inl (mem_prepend.mpr ⟨suffix, rfl,
              mem_suffixEnds.mpr ⟨rfl, hparts.solid, hparts.starts⟩⟩)
        | cons d name =>
            obtain ⟨rfl, rfl⟩ := List.cons_eq_cons.mp heq
            have hfeed := hparts.single
            rw [List.mem_cons, not_or] at hfeed
            rw [if_neg (Ne.symm hfeed.1)]
            exact .inr (mem_prepend.mpr ⟨name ++ '"' :: suffix, rfl,
              ih.mpr ⟨name, suffix, rfl, rfl, hfeed.2, hparts.solid, hparts.starts⟩⟩)

/-! ### The way that is preferred -/

theorem head?_runEnds {s rest : List Char} (hsolid : ∀ c ∈ s, isBlank c = false)
    (hrest : Ends rest) : (runEnds (s ++ rest)).head? = some (s, rest) := by
  induction s with
  | nil =>
      cases rest with
      | nil => rfl
      | cons c rest => simp [runEnds, hrest c rfl]
  | cons c s ih =>
      have hrun := ih fun d hd => hsolid d (List.mem_cons_of_mem c hd)
      simp [runEnds, prepend, hsolid c List.mem_cons_self, List.head?_append, hrun]

theorem head?_suffixEnds {name suffix rest : List Char} (h : PlainParts name suffix rest) :
    (suffixEnds (suffix ++ rest)).head? = some (suffix, rest) := by
  have hreaches := h.reaches
  cases suffix with
  | nil =>
      cases rest with
      | nil => rfl
      | cons c rest =>
          have hstop : startsSuffix c = false := by simpa using hreaches c rfl
          simp [suffixEnds, hstop]
  | cons c suffix =>
      have hends : Ends rest := by
        intro d hd
        simpa using hreaches d hd
      have hsolid : ∀ d ∈ suffix, isBlank d = false :=
        fun d hd => h.solid d (List.mem_cons_of_mem c hd)
      simp [suffixEnds, prepend, h.starts c rfl, List.head?_append, head?_runEnds hsolid hends]

/-- As long as there is neither a quote nor a line feed, a label cannot end. -/
theorem ends_append {name : List Char} (hname : ∀ c ∈ name, c ≠ '"' ∧ c ≠ '\n') (s : List Char) :
    ends (name ++ '"' :: s) =
      (suffixEnds s ++ ends s).map fun way => (name ++ '"' :: way.1, way.2) := by
  induction name with
  | nil => simp [ends, prepend]
  | cons c name ih =>
      have hrest := ih fun d hd => hname d (List.mem_cons_of_mem c hd)
      obtain ⟨hquote, hfeed⟩ := hname c List.mem_cons_self
      rw [List.cons_append, ends, if_neg hquote, if_neg hfeed, hrest, prepend, List.map_map,
        List.nil_append]
      rfl

/-- A label that could not end anywhere else is preferred. -/
theorem head?_ends {name suffix rest : List Char} (h : PlainParts name suffix rest) :
    (ends (name ++ '"' :: (suffix ++ rest))).head? = some (name ++ '"' :: suffix, rest) := by
  rw [ends_append h.plain, List.head?_map, List.head?_append, head?_suffixEnds h]
  rfl

/-! ### Reading a line from its end -/

/-- Reads a text from its end, where `worth` tells what every end of it is worth. -/
def scan {α : Type} (starts : Char → Bool) (worth : List Char → Option α) : List Char → Ahead α
  | [] => .nil (worth [])
  | c :: s => (scan starts worth s).step starts (worth (c :: s)) c

/-- The first of several divisions of a text whose second part is worth something. -/
def pick {α : Type} (worth : List Char → Option α) (ways : List (List Char × List Char)) :
    Option (List Char × α) :=
  ways.findSome? fun way => (worth way.2).map ((way.1, ·))

variable {α : Type} (worth : List Char → Option α)

theorem pick_append (first second : List (List Char × List Char)) :
    pick worth (first ++ second) = (pick worth first <|> pick worth second) := by
  rw [pick, List.findSome?_append, Option.orElse_eq_orElse, Option.orElse_eq_or, pick, pick]

theorem pick_prepend (c : Char) (ways : List (List Char × List Char)) :
    pick worth (prepend c ways) = extend c (pick worth ways) := by
  rw [pick, prepend, List.findSome?_map, extend, pick, List.map_findSome?]
  congr 1
  funext way
  simp only [Function.comp_apply, Option.map_map]
  rfl

theorem pick_singleton (text rest : List Char) :
    pick worth [(text, rest)] = (worth rest).map ((text, ·)) := by
  rw [pick, List.findSome?_singleton]

theorem run_scan_eq_pick (starts : Char → Bool) (s : List Char) :
    (scan starts worth s).run = pick worth (runEnds s) := by
  induction s with
  | nil => rw [runEnds, pick_singleton]; rfl
  | cons c s ih =>
      rw [runEnds, pick_append, pick_singleton, apply_ite (pick worth), pick_prepend, ← ih]
      rfl

theorem closed_scan_eq_pick (s : List Char) :
    (scan startsSuffix worth s).closed = pick worth (suffixEnds s) := by
  cases s with
  | nil => rw [suffixEnds, pick_singleton]; rfl
  | cons c s =>
      rw [suffixEnds, pick_append, pick_singleton, apply_ite (pick worth), pick_prepend,
        ← run_scan_eq_pick worth startsSuffix]
      rfl

/-- A label ends in the first way that lets the rest of the line be read. -/
theorem body_scan (s : List Char) : (scan startsSuffix worth s).body = pick worth (ends s) := by
  induction s with
  | nil => rfl
  | cons c s ih =>
      rw [ends, pick_append, apply_ite (pick worth), apply_ite (pick worth), pick_prepend,
        pick_prepend, ← closed_scan_eq_pick, ← ih]
      rfl

variable {worth}

theorem pick_eq_some {ways : List (List Char × List Char)} {text : List Char} {value : α}
    (h : pick worth ways = some (text, value)) :
    ∃ rest, (text, rest) ∈ ways ∧ worth rest = some value := by
  obtain ⟨⟨first, rest⟩, hmem, hworth⟩ := List.exists_of_findSome?_eq_some h
  obtain ⟨found, hfound, heq⟩ := Option.map_eq_some_iff.mp hworth
  cases heq
  exact ⟨rest, hmem, hfound⟩

theorem isSome_pick {ways : List (List Char × List Char)} {text rest : List Char}
    (hmem : (text, rest) ∈ ways) (hworth : (worth rest).isSome = true) :
    (pick worth ways).isSome = true := by
  rw [pick, List.findSome?_isSome_iff]
  exact ⟨(text, rest), hmem, by simpa using hworth⟩

theorem isSome_pick_congr {β : Type} {worth' : List Char → Option β}
    {ways : List (List Char × List Char)}
    (h : ∀ way ∈ ways, (worth way.2).isSome = (worth' way.2).isSome) :
    (pick worth ways).isSome = (pick worth' ways).isSome := by
  rw [Bool.eq_iff_iff, pick, pick, List.findSome?_isSome_iff, List.findSome?_isSome_iff]
  simp only [Option.isSome_map]
  constructor
  · rintro ⟨way, hmem, hway⟩
    exact ⟨way, hmem, h way hmem ▸ hway⟩
  · rintro ⟨way, hmem, hway⟩
    exact ⟨way, hmem, (h way hmem).symm ▸ hway⟩

theorem pick_of_head? {ways : List (List Char × List Char)} {text rest : List Char} {value : α}
    (hhead : ways.head? = some (text, rest)) (hworth : worth rest = some value) :
    pick worth ways = some (text, value) := by
  cases ways with
  | nil => cases hhead
  | cons way ways =>
      cases hhead
      simp [pick, hworth]

/-- A character that can start a suffix is taken as a suffix, if the line can be read from behind
it. -/
theorem pick_ends_of_starts {name s : List Char} {c : Char}
    (hname : ∀ c ∈ name, c ≠ '"' ∧ c ≠ '\n') (hc : startsSuffix c = true)
    (hworth : (worth s).isSome = true) :
    ∃ tail value, pick worth (ends (name ++ '"' :: c :: s)) =
      some (name ++ '"' :: c :: tail, value) := by
  -- The suffixes that start with the character come first, and one of them is the character alone.
  let close := fun way : List Char × List Char => (name ++ '"' :: way.1, way.2)
  have hways : ends (name ++ '"' :: c :: s) = (prepend c (runEnds s)).map close ++
      ([([], c :: s)] ++ ends (c :: s)).map close := by
    rw [ends_append hname, suffixEnds, if_pos hc, List.append_assoc, List.map_append]
  have hmem : (name ++ '"' :: [c], s) ∈ (prepend c (runEnds s)).map close := by
    have hrun : ([], s) ∈ runEnds s := mem_runEnds.mpr ⟨rfl, by simp⟩
    exact List.mem_map.mpr ⟨([c], s), mem_prepend.mpr ⟨[], rfl, hrun⟩, rfl⟩
  obtain ⟨⟨text, value⟩, hpick⟩ := Option.isSome_iff_exists.mp (isSome_pick hmem hworth)
  obtain ⟨rest, htext, -⟩ := pick_eq_some hpick
  obtain ⟨⟨suffix, rest'⟩, hsuffix, heq⟩ := List.mem_map.mp htext
  obtain ⟨tail, rfl, -⟩ := mem_prepend.mp hsuffix
  cases heq
  exact ⟨tail, value, by rw [hways, pick_append, hpick]; rfl⟩

end OpenLabel

end Line

/-- A written label could not end anywhere else than where it does. -/
theorem WrittenLabel.plainParts (label : WrittenLabel) {rest : List Char} (hrest : Line.Ends rest) :
    Line.PlainParts label.name.chars label.suffix rest := by
  refine ⟨⟨fun hfeed => (label.name.plain _ hfeed).2 rfl, fun c hc => (label.solid c hc).1,
    fun c hc => label.startsSuffix_of_head hc⟩, fun hquote => (label.name.plain _ hquote).1 rfl, ?_⟩
  intro c hc
  split
  · simp [Line.startsSuffix, hrest c hc]
  · exact hrest c hc

end Gridwright
