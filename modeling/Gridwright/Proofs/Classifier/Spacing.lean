import Gridwright.Proofs.Classifier.Statements

/-!
# Gaps around the arrows of a link

An author may leave any gaps around the arrows of a link, or none.  However they are chosen the
line is a link line, and it means the same as with single spaces exactly if no two-way arrow is
glued to the room in front of it (`classify_spacedLink_iff`).  The sign `<` may start a suffix, so
such an arrow loses it to the label: to the first room when the line is accepted
(`pick_first_of_glued`), and to the room of a hop when the hops are told apart
(`apart_of_hops_eq`).
-/

namespace Gridwright

open Gridwright.Text Gridwright.Line

/-! ### Links with gaps -/

/-- Any number of blank characters. -/
structure Gap where
  chars : List Char
  blank : isBlankText chars = true

/-- A label without a suffix. -/
def QuotedText.bare (quoted : QuotedText) : WrittenLabel := ⟨quoted, [], by simp, by simp⟩

/-- A hop with the gaps in front of its arrow and behind it. -/
structure SpacedHop where
  before : Gap
  twoWay : Bool
  behind : Gap
  room : QuotedText

namespace SpacedHop

def text (hop : SpacedHop) : List Char :=
  hop.before.chars ++ (arrowText hop.twoWay ++ (hop.behind.chars ++ hop.room.written.toList))

/-- The same hop with single spaces. -/
def single (hop : SpacedHop) : WrittenHop := ⟨hop.twoWay, hop.room.bare⟩

/-- The arrow cannot lose a sign to the label in front. -/
def Apart (hop : SpacedHop) : Prop := hop.twoWay = true → hop.before.chars ≠ []

end SpacedHop

/-- The text of a path behind its first room. -/
def spacedText (hops : List SpacedHop) : List Char := hops.flatMap (·.text)

/-- A link as a line of a source, with gaps around its arrows. -/
def spacedLink (exit : WrittenLabel) (first : QuotedText) (hops : List SpacedHop) : String :=
  exit.written ++ " : " ++ first.written ++ String.ofList (spacedText hops)

/-- The same link with single spaces. -/
def singleLink (exit : WrittenLabel) (first : QuotedText) (hop : SpacedHop)
    (more : List SpacedHop) : Statement :=
  .link exit first.bare hop.single (more.map (·.single))

/-! ### Paths with gaps -/

theorem spacedText_cons (hop : SpacedHop) (more : List SpacedHop) :
    spacedText (hop :: more) = hop.before.chars ++ (arrowText hop.twoWay ++ (hop.behind.chars ++
      '"' :: (hop.room.chars ++ '"' :: ([] ++ spacedText more)))) := by
  simp [spacedText, SpacedHop.text, QuotedText.toList_written]

theorem SpacedHop.hop_single (hop : SpacedHop) :
    hop.single.hop = ⟨hop.twoWay, ⟨String.ofList ('"' :: (hop.room.chars ++ '"' :: []))⟩⟩ := by
  rw [WrittenHop.hop, ← WrittenLabel.mk_eq_label]
  rfl

theorem QuotedText.labelParts (quoted : QuotedText) : LabelParts quoted.chars [] :=
  ⟨fun hfeed => (quoted.plain _ hfeed).2 rfl, by simp, by simp⟩

theorem QuotedText.not_mem_quote (quoted : QuotedText) : '"' ∉ quoted.chars :=
  fun hquote => (quoted.plain _ hquote).1 rfl

/-- The hop that a text with gaps starts with. -/
theorem startsWithHop_spacedText (hop : SpacedHop) (more : List SpacedHop) :
    ∃ front, spacedText (hop :: more) = hop.before.chars ++ front ∧
      StartsWithHop AnyParts front hop.single.hop (spacedText more) := by
  rw [spacedText_cons, hop.hop_single]
  exact ⟨_, rfl, .mk hop.twoWay hop.behind.blank hop.room.labelParts⟩

/-- A text with gaps is a path, if labels may end anywhere. -/
theorem path_spacedText (hops : List SpacedHop) :
    Path AnyParts (spacedText hops) (hops.map (·.single.hop)) := by
  induction hops with
  | nil => exact .nil rfl
  | cons hop more ih =>
      obtain ⟨front, htext, hhop⟩ := startsWithHop_spacedText hop more
      rw [htext, List.map_cons]
      exact .cons hop.before.blank hhop ih

/-- No suffix can start in front of an arrow that stands apart, and one can start with an arrow that
does not. -/
theorem head_spacedText_iff (hop : SpacedHop) (more : List SpacedHop) :
    (∀ c ∈ (spacedText (hop :: more)).head?, startsSuffix c = false) ↔ hop.Apart := by
  rw [spacedText_cons, SpacedHop.Apart]
  have hblank := hop.before.blank
  cases hbefore : hop.before.chars with
  | nil => cases hop.twoWay <;> simp [arrowText] <;> decide
  | cons c gap =>
      rw [hbefore, isBlankText, List.all_cons, Bool.and_eq_true] at hblank
      simp [startsSuffix, hblank.1]

theorem reaches_spacedText {hops : List SpacedHop} (h : ∀ hop ∈ hops, hop.Apart) :
    ∀ c ∈ (spacedText hops).head?, startsSuffix c = false := by
  cases hops with
  | nil => simp [spacedText]
  | cons hop more => exact (head_spacedText_iff hop more).mpr (h hop List.mem_cons_self)

theorem plain_spacedText {hops : List SpacedHop} (h : ∀ hop ∈ hops, hop.Apart) :
    Path PlainParts (spacedText hops) (hops.map (·.single.hop)) := by
  induction hops with
  | nil => exact .nil rfl
  | cons hop more ih =>
      rw [List.forall_mem_cons] at h
      have hparts : PlainParts hop.room.chars [] (spacedText more) :=
        ⟨hop.room.labelParts, hop.room.not_mem_quote, by simpa using reaches_spacedText h.2⟩
      rw [spacedText_cons, List.map_cons, hop.hop_single]
      exact .cons hop.before.blank (.mk hop.twoWay hop.behind.blank hparts) (ih h.2)

/-- Behind a label without a suffix no suffix can start. -/
theorem SpacedHop.head_of_plain {hop : SpacedHop} {s rest : List Char}
    (h : StartsWithHop PlainParts s hop.single.hop rest) :
    ∀ c ∈ rest.head?, startsSuffix c = false := by
  generalize hsame : hop.single.hop = found at h
  obtain @⟨gap, name, suffix, _, twoWay, hgap, hparts⟩ := h
  rw [hop.hop_single, Hop.mk.injEq, Label.mk.injEq, String.ofList_inj, List.cons_eq_cons] at hsame
  obtain ⟨-, -, hlabel⟩ := hsame
  obtain ⟨-, -, hsuffix⟩ :=
    (List.append_cons_inj_of_notMem hop.room.not_mem_quote List.not_mem_nil).mp hlabel
  have hreaches := hparts.reaches
  rw [← hsuffix] at hreaches
  simpa using hreaches

/-- If the hops are told apart as they were meant, then no arrow behind the first one is glued. -/
theorem apart_of_hops_eq {hop : SpacedHop} {more : List SpacedHop}
    (h : hops (spacedText (hop :: more)) = (hop :: more).map (·.single.hop)) :
    ∀ next ∈ more, next.Apart := by
  induction more generalizing hop with
  | nil => simp
  | cons next more ih =>
      obtain ⟨front, htext, hhop⟩ := startsWithHop_spacedText hop (next :: more)
      rw [htext] at h
      obtain ⟨hplain, hmore⟩ := hhop.plain_of_hops_eq hop.before.blank h
      rw [List.forall_mem_cons]
      exact ⟨(head_spacedText_iff next more).mp (SpacedHop.head_of_plain hplain), ih hmore⟩

/-! ### The first room -/

theorem firstWorth_spacedText (hop : SpacedHop) (more : List SpacedHop) :
    Link.firstWorth (spacedText (hop :: more)) = some (spacedText (hop :: more)) :=
  Link.firstWorth_eq_some_iff.mpr ⟨rfl, Link.isSome_matched_of_path (path_spacedText _)⟩

theorem pick_first_of_apart (first : QuotedText) {hop : SpacedHop} (more : List SpacedHop)
    (h : hop.Apart) :
    OpenLabel.pick Link.firstWorth
        (OpenLabel.ends (first.chars ++ '"' :: spacedText (hop :: more))) =
      some (first.bare.inner, spacedText (hop :: more)) := by
  have hparts : PlainParts first.chars [] (spacedText (hop :: more)) :=
    ⟨first.labelParts, first.not_mem_quote, by simpa using (head_spacedText_iff hop more).mpr h⟩
  exact OpenLabel.pick_of_head? (OpenLabel.head?_ends hparts) (firstWorth_spacedText hop more)

/-- A two-way arrow that is glued to the first room loses its first sign to it: what is left is an
arrow too. -/
theorem pick_first_of_glued (first : QuotedText) {hop : SpacedHop} (more : List SpacedHop)
    (h : ¬ hop.Apart) :
    ∃ tail value, OpenLabel.pick Link.firstWorth
        (OpenLabel.ends (first.chars ++ '"' :: spacedText (hop :: more))) =
      some (first.chars ++ '"' :: '<' :: tail, value) := by
  have hglued : hop.twoWay = true ∧ hop.before.chars = [] := by
    simpa [SpacedHop.Apart] using h
  let oneWay : SpacedHop := { hop with twoWay := false }
  have htext : spacedText (hop :: more) = '<' :: spacedText (oneWay :: more) := by
    rw [spacedText_cons, spacedText_cons, hglued.1, hglued.2]
    simp [oneWay, arrowText]
  rw [htext]
  refine OpenLabel.pick_ends_of_starts first.plain (by decide) ?_
  rw [firstWorth_spacedText]
  rfl

/-! ### Classification -/

theorem pathActions_injective (exit : Label) {previous : Label} {path path' : List Hop}
    (h : pathActions exit previous path = pathActions exit previous path') : path = path' := by
  induction path generalizing previous path' with
  | nil =>
      cases path' with
      | nil => rfl
      | cons hop' more' => cases h
  | cons hop more ih =>
      cases path' with
      | nil => cases h
      | cons hop' more' =>
          obtain ⟨twoWay, room⟩ := hop
          obtain ⟨twoWay', room'⟩ := hop'
          simp only [pathActions, List.cons.injEq, Action.createRoom.injEq] at h
          obtain ⟨rfl, -, hrest⟩ := h
          -- A way back is never mistaken for the next room.
          cases twoWay <;> cases twoWay'
          · rw [ih hrest]
          · cases more <;> simp [pathActions] at hrest
          · cases more' <;> simp [pathActions] at hrest
          · rw [ih (List.cons_eq_cons.mp hrest).2]

theorem actions_singleLink (exit : WrittenLabel) (first : QuotedText) (hop : SpacedHop)
    (more : List SpacedHop) :
    (singleLink exit first hop more).actions = .createRoom first.bare.label ::
      pathActions exit.label first.bare.label ((hop :: more).map (·.single.hop)) := by
  have hpath := pathActions_written exit.label first.bare ((hop :: more).map (·.single))
  rw [List.map_map] at hpath
  rw [singleLink, Statement.actions]
  exact congrArg _ hpath.symm

theorem spacedText_eq_concat (hop : SpacedHop) (more : List SpacedHop) :
    ∃ front, spacedText (hop :: more) = front ++ ['"'] := by
  induction more generalizing hop with
  | nil =>
      refine ⟨hop.before.chars ++ (arrowText hop.twoWay ++ (hop.behind.chars ++
        '"' :: hop.room.chars)), ?_⟩
      simp [spacedText, SpacedHop.text, QuotedText.toList_written]
  | cons next more ih =>
      obtain ⟨front, hfront⟩ := ih next
      have hsplit : spacedText (hop :: next :: more) = hop.text ++ spacedText (next :: more) := rfl
      exact ⟨hop.text ++ front, by rw [hsplit, hfront, List.append_assoc]⟩

theorem trimEnd_spacedText (hop : SpacedHop) (more : List SpacedHop) :
    trimEnd (spacedText (hop :: more)) = spacedText (hop :: more) := by
  obtain ⟨front, hfront⟩ := spacedText_eq_concat hop more
  refine trimEnd_eq_self_iff.mpr ?_
  simp [hfront, not_isBlank_quote]

theorem trim_spacedLink (exit : WrittenLabel) (first : QuotedText) (hop : SpacedHop)
    (more : List SpacedHop) :
    trim (spacedLink exit first (hop :: more)).toList = ['"'] ++ (exit.inner ++
      (" : ".toList ++ '"' :: (first.chars ++ '"' :: spacedText (hop :: more)))) := by
  have htext : (spacedLink exit first (hop :: more)).toList = ['"'] ++ (exit.inner ++
      (" : ".toList ++ '"' :: (first.chars ++ '"' :: spacedText (hop :: more)))) := by
    simp [spacedLink, WrittenLabel.toList_written, QuotedText.toList_written]
  obtain ⟨front, hfront⟩ := spacedText_eq_concat hop more
  have hlast : exit.inner ++
      (" : ".toList ++ '"' :: (first.chars ++ '"' :: spacedText (hop :: more))) =
      (exit.inner ++ (" : ".toList ++ '"' :: (first.chars ++ '"' :: front))) ++ ['"'] := by
    simp [hfront]
  rw [htext, hlast]
  refine trim_append_eq_self (by simp) (by simp) (by simp [not_isBlank_quote]) ?_
  intro c hc
  rw [List.getLast?_concat] at hc
  cases hc
  exact not_isBlank_quote

namespace Classifier

variable (lastLiteral : Option Nat) (number : Nat)

theorem classify_spacedLink {exit : WrittenLabel} {first : QuotedText} {hop : SpacedHop}
    {more : List SpacedHop} {text hops : List Char}
    (h : OpenLabel.pick Link.firstWorth
        (OpenLabel.ends (first.chars ++ '"' :: spacedText (hop :: more))) = some (text, hops)) :
    classify ⟨.outside, lastLiteral⟩ number (spacedLink exit first (hop :: more)) =
      (⟨.outside, lastLiteral⟩,
        linkActions exit.label ⟨String.ofList ('"' :: text)⟩ (String.ofList (trimEnd hops))) := by
  rw [← exit.mk_eq_label]
  exact classify_of_link? lastLiteral number (trim_spacedLink exit first hop more)
    (link?_of_pick exit h)

/-- The gaps around the arrows of a link make no difference exactly if no two-way arrow is glued to
the room in front of it. -/
theorem classify_spacedLink_iff (exit : WrittenLabel) (first : QuotedText) (hop : SpacedHop)
    (more : List SpacedHop) :
    classify ⟨.outside, lastLiteral⟩ number (singleLink exit first hop more).text =
      (⟨.outside, lastLiteral⟩, (singleLink exit first hop more).actions) ∧
    (classify ⟨.outside, lastLiteral⟩ number (spacedLink exit first (hop :: more)) =
        (⟨.outside, lastLiteral⟩, (singleLink exit first hop more).actions) ↔
      ∀ next ∈ hop :: more, next.twoWay = true → next.before.chars ≠ []) := by
  have hsingle := classify_link lastLiteral number exit first.bare hop.single
    (more.map (·.single))
  refine ⟨by rw [singleLink, Statement.text, hsingle], ?_⟩
  rw [actions_singleLink, List.forall_mem_cons]
  -- A first arrow that is glued already shows in the label of the first room.
  by_cases hapart : hop.Apart
  · rw [classify_spacedLink lastLiteral number (pick_first_of_apart first more hapart),
      trimEnd_spacedText, first.bare.mk_eq_label, linkActions, String.toList_ofList]
    constructor
    · intro hsame
      obtain ⟨-, hpath⟩ := List.cons_eq_cons.mp (Prod.mk.inj hsame).2
      exact ⟨hapart, apart_of_hops_eq (pathActions_injective exit.label hpath)⟩
    · intro hmore
      have hplain := plain_spacedText (List.forall_mem_cons.mpr hmore)
      rw [hops_of_plain hplain]
  · obtain ⟨tail, value, hpick⟩ := pick_first_of_glued first more hapart
    rw [classify_spacedLink lastLiteral number hpick, linkActions]
    constructor
    · intro hsame
      obtain ⟨hfirst, -⟩ := List.cons_eq_cons.mp (Prod.mk.inj hsame).2
      rw [← first.bare.mk_eq_label, Action.createRoom.injEq, Label.mk.injEq, String.ofList_inj,
        List.cons_eq_cons] at hfirst
      have hsuffix : '"' :: '<' :: tail = ['"'] := List.append_cancel_left hfirst.2
      cases hsuffix
    · intro hmore
      exact absurd hmore.1 hapart

/-- A two-way arrow that is glued to the first room is read as a part of the room's label and a
one-way arrow, and the way back is lost. -/
theorem glued_two_way_arrow :
    let exit : Label := ⟨"\"e\""⟩
    let first : Label := ⟨"\"A\""⟩
    let second : Label := ⟨"\"B\""⟩
    let taken : Label := ⟨"\"A\"<"⟩
    classify {} 1 "\"e\" : \"A\"<->\"B\"" =
      ({}, [.createRoom taken, .createRoom second, .createExit exit taken second]) ∧
    classify {} 1 "\"e\" : \"A\" <-> \"B\"" =
      ({}, [.createRoom first, .createRoom second, .createExit exit first second,
        .createReverseExit exit first second]) := by
  decide +kernel

end Classifier

end Gridwright
