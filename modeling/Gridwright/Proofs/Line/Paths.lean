import Gridwright.Proofs.Line.OpenLabels

/-!
# Paths in a link line

A link line is accepted if what stands behind its first room is a path: hops with optional gaps in
front of them and inside, and a gap at the end.  Since a label may end at any of its quotes, a text
can be read as several paths.  `Link.matched` is the one that makes the line acceptable.  It is a
path (`Link.path_of_matched`), there is one wherever there is a path
(`Link.isSome_matched_of_path`), and accepting the line comes down to it
(`Link.hops_ahead_eq_isSome_matched`).  What an accepted line looks like is said by
`split_of_link?`.
-/

namespace Gridwright.Line

open Gridwright.Text

/-! ### Gaps and arrows -/

theorem trimStart_append_of_gap {gap : List Char} (hgap : isBlankText gap = true) (s : List Char) :
    trimStart (gap ++ s) = trimStart s :=
  List.dropWhile_append_of_pos (List.all_eq_true.mp hgap)

theorem exists_gap (s : List Char) : ∃ gap, isBlankText gap = true ∧ s = gap ++ trimStart s :=
  ⟨s.takeWhile isBlank, List.all_takeWhile, eq_append_trimStart s⟩

def arrowText (twoWay : Bool) : List Char := if twoWay then "<->".toList else "->".toList

theorem arrowText_true (s : List Char) : arrowText true ++ s = '<' :: '-' :: '>' :: s := rfl

theorem arrowText_false (s : List Char) : arrowText false ++ s = '-' :: '>' :: s := rfl

theorem arrow?_eq_some_iff {s rest : List Char} {twoWay : Bool} :
    arrow? s = some (twoWay, rest) ↔ s = arrowText twoWay ++ rest := by
  constructor
  · intro h
    unfold arrow? at h
    split at h
    · cases h
      rfl
    · cases h
      rfl
    · cases h
  · rintro rfl
    cases twoWay <;> rfl

theorem trimStart_arrowText (twoWay : Bool) (s : List Char) :
    trimStart (arrowText twoWay ++ s) = arrowText twoWay ++ s := by
  refine trimStart_eq_self_iff.mpr ?_
  cases twoWay <;> simp [arrowText] <;> decide

theorem arrow?_trimStart_append {gap : List Char} (hgap : isBlankText gap = true) (twoWay : Bool)
    (s : List Char) : arrow? (trimStart (gap ++ (arrowText twoWay ++ s))) = some (twoWay, s) := by
  rw [trimStart_append_of_gap hgap, trimStart_arrowText]
  exact arrow?_eq_some_iff.mpr rfl

/-! ### Hops and paths -/

/-- A text starts with a hop, and `rest` is what stands behind it.  Which labels the hop may lead
to is left to `room`, which is told the name, the suffix and what stands behind. -/
inductive StartsWithHop (room : List Char → List Char → List Char → Prop) :
    List Char → Hop → List Char → Prop where
  | mk {gap name suffix rest : List Char} (twoWay : Bool) (hgap : isBlankText gap = true)
      (hroom : room name suffix rest) :
      StartsWithHop room (arrowText twoWay ++ (gap ++ '"' :: (name ++ '"' :: (suffix ++ rest))))
        ⟨twoWay, ⟨String.ofList ('"' :: (name ++ '"' :: suffix))⟩⟩ rest

/-- A text consists of hops, the gaps in front of them and at its end apart. -/
inductive Path (room : List Char → List Char → List Char → Prop) :
    List Char → List Hop → Prop where
  | nil {gap : List Char} (hgap : isBlankText gap = true) : Path room gap []
  | cons {gap s rest : List Char} {hop : Hop} {more : List Hop} (hgap : isBlankText gap = true)
      (hhop : StartsWithHop room s hop rest) (hrest : Path room rest more) :
      Path room (gap ++ s) (hop :: more)

/-- Every way to end a label will do. -/
def AnyParts (name suffix _rest : List Char) : Prop := LabelParts name suffix

namespace Link

/-! ### The path that makes a line acceptable -/

/-- The hops that a text consists of, at least one.  Each label ends in the first way that leaves a
gap or more hops behind it. -/
def matched (s : List Char) : Option (List Hop) :=
  match _harrow : arrow? (trimStart s) with
  | none => none
  | some (twoWay, behind) =>
    match _hquote : trimStart behind with
    | '"' :: inner =>
      (OpenLabel.ends inner).attach.findSome? fun way =>
        (if isBlankText way.1.2 then some [] else matched way.1.2).map
          (⟨twoWay, ⟨String.ofList ('"' :: way.1.1)⟩⟩ :: ·)
    | _ => none
termination_by s.length
decreasing_by
  obtain ⟨⟨text, rest⟩, hway⟩ := way
  obtain ⟨name, suffix, -, hinner, -⟩ := OpenLabel.mem_ends.mp hway
  have harrow := arrow?_length _harrow
  have hstart : (trimStart s).length ≤ s.length := (List.dropWhile_sublist _).length_le
  have hbehind : (trimStart behind).length ≤ behind.length := (List.dropWhile_sublist _).length_le
  rw [_hquote, hinner, List.length_cons, List.length_append] at hbehind
  show rest.length < s.length
  omega

/-- What may stand behind a hop: a gap or more hops. -/
def following (s : List Char) : Option (List Hop) :=
  if isBlankText s then some [] else matched s

theorem matched_of_quote {s behind inner : List Char} {twoWay : Bool}
    (harrow : arrow? (trimStart s) = some (twoWay, behind))
    (hquote : trimStart behind = '"' :: inner) :
    matched s = (OpenLabel.pick following (OpenLabel.ends inner)).map
      fun way => ⟨twoWay, ⟨String.ofList ('"' :: way.1)⟩⟩ :: way.2 := by
  rw [matched]
  split
  · rename_i hnone
    rw [harrow] at hnone
    cases hnone
  · rename_i found left hfound
    rw [harrow] at hfound
    cases hfound
    split
    · rename_i text htext
      rw [hquote] at htext
      cases htext
      have hways : ∀ way (hmem : way ∈ OpenLabel.ends inner),
          ((if isBlankText way.2 then some [] else matched way.2).map
            (⟨twoWay, ⟨String.ofList ('"' :: way.1)⟩⟩ :: ·)) =
          ((following way.2).map ((way.1, ·))).map
            fun way => ⟨twoWay, ⟨String.ofList ('"' :: way.1)⟩⟩ :: way.2 := by
        intro way _
        rw [Option.map_map, following]
        rfl
      rw [List.findSome?_subtype hways, List.unattach_attach, OpenLabel.pick, List.map_findSome?]
      rfl
    · rename_i hother
      exact absurd hquote (hother inner)

/-! ### The same path in the reading from the end -/

theorem rest_ahead (s : List Char) : (ahead s).rest = s := by
  induction s with
  | nil => rfl
  | cons c s ih => rw [ahead_cons, Ahead.step, ih]

/-- What the end of a line is worth to the room of a hop. -/
def roomWorth (s : List Char) : Option Unit :=
  if (ahead s).blank || (ahead s).hops then some () else none

/-- What the end of a line is worth to the first room. -/
def firstWorth (s : List Char) : Option (List Char) :=
  if (ahead s).hops then some (ahead s).rest else none

/-- What the end of a line is worth to the exit. -/
def exitWorth (s : List Char) : Option (List Char × List Char) := (ahead s).colon

/-- A label of a link is scanned like any other label inside a line. -/
theorem label_ahead {α : Type} {label : Ahead → OpenLabel.Ahead α} {worth : List Char → Option α}
    (hnil : label (ahead []) = .nil (worth []))
    (hcons : ∀ c s, label (ahead (c :: s)) =
      (label (ahead s)).step startsSuffix (worth (c :: s)) c) (s : List Char) :
    label (ahead s) = OpenLabel.scan startsSuffix worth s := by
  induction s with
  | nil => exact hnil
  | cons c s ih => rw [hcons, ih, OpenLabel.scan]

theorem room_ahead (s : List Char) :
    (ahead s).room = OpenLabel.scan startsSuffix roomWorth s :=
  label_ahead rfl (fun _ _ => rfl) s

theorem first_ahead (s : List Char) :
    (ahead s).first = OpenLabel.scan startsSuffix firstWorth s :=
  label_ahead rfl (fun _ _ => rfl) s

theorem exit_ahead (s : List Char) :
    (ahead s).exit = OpenLabel.scan startsSuffix exitWorth s :=
  label_ahead rfl (fun _ _ => rfl) s

/-- A part of a line that starts with a sign, behind an optional gap. -/
structure StartsWithSign {β : Type} (part : Ahead → β) (sign : Char) (inside : Ahead → β)
    (other : β) : Prop where
  solid : isBlank sign = false
  nil : part .nil = other
  step : ∀ c before, part (before.step c) =
    if isBlank c then part before else if c = sign then inside before else other

namespace StartsWithSign

variable {β : Type} {part inside : Ahead → β} {sign : Char} {other : β}

theorem append (h : StartsWithSign part sign inside other) {gap : List Char}
    (hgap : isBlankText gap = true) (behind : List Char) :
    part (ahead (gap ++ sign :: behind)) = inside (ahead behind) := by
  induction gap with
  | nil => rw [List.nil_append, ahead_cons, h.step, h.solid, if_neg Bool.false_ne_true, if_pos rfl]
  | cons c gap ih =>
      rw [isBlankText, List.all_cons, Bool.and_eq_true] at hgap
      rw [List.cons_append, ahead_cons, h.step, if_pos hgap.1, ih hgap.2]

theorem eq_append (h : StartsWithSign part sign inside other) {s : List Char}
    (hpart : part (ahead s) ≠ other) :
    ∃ gap behind, isBlankText gap = true ∧ s = gap ++ sign :: behind := by
  induction s with
  | nil => exact absurd h.nil hpart
  | cons c s ih =>
      rw [ahead_cons, h.step] at hpart
      split at hpart
      · rename_i hc
        obtain ⟨gap, behind, hgap, rfl⟩ := ih hpart
        exact ⟨c :: gap, behind, by simpa [isBlankText, hc] using hgap, rfl⟩
      · split at hpart
        · rename_i hsign
          exact ⟨[], s, rfl, by rw [hsign, List.nil_append]⟩
        · exact absurd rfl hpart

end StartsWithSign

theorem startsWithSign_target :
    StartsWithSign Ahead.target '"' (fun before => before.room.body.isSome) false := by
  refine ⟨not_isBlank_quote, rfl, ?_⟩
  intro c before
  by_cases hquote : c = '"'
  · simp [Ahead.step, hquote]
  · simp [Ahead.step, hquote, beq_eq_false_iff_ne.mpr hquote]

theorem startsWithSign_path :
    StartsWithSign Ahead.path '"' (fun before => extend '"' before.first.body) none := by
  refine ⟨not_isBlank_quote, rfl, ?_⟩
  intro c before
  by_cases hquote : c = '"' <;> simp [Ahead.step, hquote]

theorem startsWithSign_colon : StartsWithSign Ahead.colon ':' Ahead.path none :=
  ⟨by decide, rfl, fun _ _ => rfl⟩

theorem eq_cons_of_tip_ahead {s : List Char} (h : (ahead s).tip = true) :
    ∃ behind, s = '>' :: behind := by
  cases s with
  | nil => cases h
  | cons c behind =>
      simp only [ahead_cons, Ahead.step, Bool.and_eq_true, beq_iff_eq] at h
      exact ⟨behind, by rw [h.1]⟩

theorem eq_cons_of_arrow_ahead {s : List Char} (h : (ahead s).arrow = true) :
    ∃ behind, s = '-' :: '>' :: behind := by
  cases s with
  | nil => cases h
  | cons c s =>
      simp only [ahead_cons, Ahead.step, Bool.and_eq_true, beq_iff_eq] at h
      obtain ⟨behind, rfl⟩ := eq_cons_of_tip_ahead h.2
      exact ⟨behind, by rw [h.1]⟩

theorem hops_ahead (s : List Char) :
    (ahead s).hops = match arrow? (trimStart s) with
      | some (_, behind) => (ahead behind).target
      | none => false := by
  induction s with
  | nil => rfl
  | cons c s ih =>
      cases hc : isBlank c with
      | true => simp only [ahead_cons, Ahead.step, hc, if_true, ih, trimStart_cons_of_blank hc]
      | false =>
          have hhops : (ahead (c :: s)).hops =
              ((c == '-' && (ahead s).tip) || (c == '<' && (ahead s).arrow)) := by
            simp [Ahead.step, hc]
          rw [trimStart_cons_of_solid hc, hhops]
          cases harrow : arrow? (c :: s) with
          | some found =>
              obtain ⟨twoWay, behind⟩ := found
              have htext := arrow?_eq_some_iff.mp harrow
              cases twoWay with
              | true =>
                  obtain ⟨rfl, rfl⟩ := List.cons_eq_cons.mp (htext.trans (arrowText_true behind))
                  simp [Ahead.step]
              | false =>
                  obtain ⟨rfl, rfl⟩ := List.cons_eq_cons.mp (htext.trans (arrowText_false behind))
                  simp [Ahead.step]
          | none =>
              rw [← Bool.not_eq_true, Bool.or_eq_true, Bool.and_eq_true, Bool.and_eq_true,
                beq_iff_eq, beq_iff_eq]
              rintro (⟨rfl, htip⟩ | ⟨rfl, hrest⟩)
              · obtain ⟨behind, rfl⟩ := eq_cons_of_tip_ahead htip
                cases harrow
              · obtain ⟨behind, rfl⟩ := eq_cons_of_arrow_ahead hrest
                cases harrow

theorem matched_append {gap gap' : List Char} (hgap : isBlankText gap = true)
    (hgap' : isBlankText gap' = true) (twoWay : Bool) (inner : List Char) :
    matched (gap ++ (arrowText twoWay ++ (gap' ++ '"' :: inner))) =
      (OpenLabel.pick following (OpenLabel.ends inner)).map
        fun way => ⟨twoWay, ⟨String.ofList ('"' :: way.1)⟩⟩ :: way.2 := by
  refine matched_of_quote (arrow?_trimStart_append hgap twoWay _) ?_
  rw [trimStart_append_of_gap hgap', trimStart_cons_of_solid not_isBlank_quote]

theorem hops_ahead_append {gap gap' : List Char} (hgap : isBlankText gap = true)
    (hgap' : isBlankText gap' = true) (twoWay : Bool) (inner : List Char) :
    (ahead (gap ++ (arrowText twoWay ++ (gap' ++ '"' :: inner)))).hops =
      (OpenLabel.pick roomWorth (OpenLabel.ends inner)).isSome := by
  have hroom : (ahead (gap' ++ '"' :: inner)).target = (ahead inner).room.body.isSome :=
    startsWithSign_target.append hgap' inner
  rw [room_ahead, OpenLabel.body_scan] at hroom
  rw [hops_ahead, arrow?_trimStart_append hgap, ← hroom]

/-- A text that does not start with an arrow and a quote has no hops. -/
theorem eq_append_or_none (s : List Char) :
    (∃ gap gap' twoWay inner, isBlankText gap = true ∧ isBlankText gap' = true ∧
      s = gap ++ (arrowText twoWay ++ (gap' ++ '"' :: inner))) ∨
    (matched s = none ∧ (ahead s).hops = false) := by
  obtain ⟨gap, hgap, hs⟩ := exists_gap s
  cases harrow : arrow? (trimStart s) with
  | none =>
      refine .inr ⟨?_, ?_⟩
      · rw [matched]
        split
        · rfl
        · rename_i hsome
          rw [harrow] at hsome
          cases hsome
      · rw [hops_ahead, harrow]
  | some found =>
      obtain ⟨twoWay, behind⟩ := found
      rw [arrow?_eq_some_iff.mp harrow] at hs
      by_cases hquote : ∃ gap' inner, isBlankText gap' = true ∧ behind = gap' ++ '"' :: inner
      · obtain ⟨gap', inner, hgap', rfl⟩ := hquote
        exact .inl ⟨gap, gap', twoWay, inner, hgap, hgap', hs⟩
      · refine .inr ⟨?_, ?_⟩
        · rw [matched]
          split
          · rfl
          · rename_i hsome
            rw [harrow] at hsome
            cases hsome
            split
            · rename_i inner hinner
              obtain ⟨gap', hgap', hbehind⟩ := exists_gap behind
              rw [hinner] at hbehind
              exact absurd ⟨gap', inner, hgap', hbehind⟩ hquote
            · rfl
        · rw [hops_ahead, harrow]
          by_contra htarget
          exact hquote (startsWithSign_target.eq_append htarget)

theorem blank_ahead (s : List Char) : (ahead s).blank = isBlankText s := by
  induction s with
  | nil => rfl
  | cons c s ih =>
      rw [isBlankText, List.all_cons, ← isBlankText, ← ih]
      rfl

/-- A line is acceptable from some place on exactly if there is a path from there on. -/
theorem hops_ahead_eq_isSome_matched (s : List Char) : (ahead s).hops = (matched s).isSome := by
  -- On the length: the path goes on behind a label, wherever the label ends.
  induction hlength : s.length using Nat.strong_induction_on generalizing s with
  | _ length ih =>
      rcases eq_append_or_none s with ⟨gap, gap', twoWay, inner, hgap, hgap', rfl⟩ | ⟨hnone, hfalse⟩
      · rw [matched_append hgap hgap', hops_ahead_append hgap hgap', Option.isSome_map]
        refine OpenLabel.isSome_pick_congr ?_
        rintro ⟨text, rest⟩ hmem
        obtain ⟨name, suffix, -, rfl, -⟩ := OpenLabel.mem_ends.mp hmem
        have hrest := ih rest.length (by simp [← hlength]; omega) rest rfl
        rw [following, roomWorth, blank_ahead, hrest]
        cases hblank : isBlankText rest with
        | true => rfl
        | false => cases matched rest <;> rfl
      · rw [hnone, hfalse]
        rfl

/-! ### Paths and the path that makes a line acceptable -/

/-- The path that makes a line acceptable starts with a hop, and what follows the hop is a path or
a gap. -/
theorem exists_hop_of_matched {s : List Char} {path : List Hop} (h : matched s = some path) :
    ∃ gap front hop rest more, isBlankText gap = true ∧ s = gap ++ front ∧
      StartsWithHop AnyParts front hop rest ∧ following rest = some more ∧ path = hop :: more := by
  rcases eq_append_or_none s with ⟨gap, gap', twoWay, inner, hgap, hgap', rfl⟩ | ⟨hnone, -⟩
  · rw [matched_append hgap hgap'] at h
    obtain ⟨⟨text, more⟩, hpick, rfl⟩ := Option.map_eq_some_iff.mp h
    obtain ⟨rest, hmem, hmore⟩ := OpenLabel.pick_eq_some hpick
    obtain ⟨name, suffix, rfl, rfl, hparts⟩ := OpenLabel.mem_ends.mp hmem
    refine ⟨gap, _, _, rest, more, hgap, rfl, ?_, hmore, rfl⟩
    rw [List.append_assoc, List.cons_append]
    exact .mk twoWay hgap' hparts
  · rw [hnone] at h
    cases h

theorem path_of_matched {s : List Char} {path : List Hop} (h : matched s = some path) :
    Path AnyParts s path := by
  induction path generalizing s with
  | nil =>
      obtain ⟨_, _, _, _, _, _, _, _, _, hpath⟩ := exists_hop_of_matched h
      cases hpath
  | cons hop more ih =>
      obtain ⟨gap, front, hop, rest, more, hgap, rfl, hhop, hmore, hpath⟩ := exists_hop_of_matched h
      cases hpath
      refine .cons hgap hhop ?_
      rw [following] at hmore
      split at hmore
      · rename_i hblank
        cases hmore
        exact .nil hblank
      · exact ih hmore

theorem following_append_of_hop {room : List Char → List Char → List Char → Prop}
    {s rest : List Char} {hop : Hop} (hhop : StartsWithHop room s hop rest) (gap : List Char) :
    following (gap ++ s) = matched (gap ++ s) := by
  refine if_neg ?_
  intro hblank
  obtain ⟨twoWay, hgap', hroom⟩ := hhop
  have hquote := List.all_eq_true.mp hblank '"' (by simp)
  cases not_isBlank_quote.symm.trans hquote

theorem following_of_matched {s : List Char} {path : List Hop} (h : matched s = some path) :
    following s = some path := by
  obtain ⟨gap, front, hop, rest, more, hgap, rfl, hhop, -, -⟩ := exists_hop_of_matched h
  rw [following_append_of_hop hhop, h]

/-- Wherever there is a path, a line is acceptable. -/
theorem isSome_following_of_path {s : List Char} {path : List Hop} (h : Path AnyParts s path) :
    (following s).isSome = true := by
  induction h with
  | nil hgap => rw [following, if_pos hgap]; rfl
  | @cons gap _ rest _ _ hgap hhop hrest ih =>
      rw [following_append_of_hop hhop]
      obtain ⟨twoWay, hgap', hparts⟩ := hhop
      rw [matched_append hgap hgap', Option.isSome_map]
      -- The label may end as it does in the path, so some way to end it is found.
      exact OpenLabel.isSome_pick (OpenLabel.mem_ends.mpr ⟨_, _, rfl, by simp, hparts⟩) ih

theorem isSome_matched_of_path {s : List Char} {hop : Hop} {more : List Hop}
    (h : Path AnyParts s (hop :: more)) : (matched s).isSome = true := by
  have hsome := isSome_following_of_path h
  obtain - | ⟨hgap, hhop, hrest⟩ := h
  rwa [following_append_of_hop hhop] at hsome

/-- A path whose labels could not end anywhere else is the one that makes the line acceptable. -/
theorem following_of_plain {s : List Char} {path : List Hop} (h : Path PlainParts s path) :
    following s = some path := by
  induction h with
  | nil hgap => exact if_pos hgap
  | cons hgap hhop hrest ih =>
      rw [following_append_of_hop hhop]
      obtain ⟨twoWay, hgap', hparts⟩ := hhop
      rw [matched_append hgap hgap', OpenLabel.pick_of_head? (OpenLabel.head?_ends hparts) ih]
      rfl

theorem matched_of_plain {s : List Char} {hop : Hop} {more : List Hop}
    (h : Path PlainParts s (hop :: more)) : matched s = some (hop :: more) := by
  have hfollowing := following_of_plain h
  obtain - | ⟨hgap, hhop, hrest⟩ := h
  rwa [following_append_of_hop hhop] at hfollowing

/-! ### The parts of a link line -/

theorem firstWorth_eq_some_iff {s hops : List Char} :
    firstWorth s = some hops ↔ s = hops ∧ (matched s).isSome = true := by
  rw [firstWorth, hops_ahead_eq_isSome_matched, rest_ahead]
  split
  · rename_i hsome
    simp [hsome]
  · rename_i hnone
    simp [hnone]

theorem colon_ahead_append {gap gap' : List Char} (hgap : isBlankText gap = true)
    (hgap' : isBlankText gap' = true) (inner : List Char) :
    (ahead (gap ++ ':' :: (gap' ++ '"' :: inner))).colon =
      extend '"' (OpenLabel.pick firstWorth (OpenLabel.ends inner)) := by
  rw [startsWithSign_colon.append hgap, startsWithSign_path.append hgap', first_ahead,
    OpenLabel.body_scan]

theorem eq_append_of_colon_ahead {s first hops : List Char}
    (h : (ahead s).colon = some (first, hops)) :
    ∃ gap gap', isBlankText gap = true ∧ isBlankText gap' = true ∧
      s = gap ++ ':' :: (gap' ++ (first ++ hops)) ∧ (matched hops).isSome = true := by
  obtain ⟨gap, behind, hgap, rfl⟩ :=
    startsWithSign_colon.eq_append (Option.ne_none_iff_exists'.mpr ⟨_, h⟩)
  have hpath := h
  rw [startsWithSign_colon.append hgap] at hpath
  obtain ⟨gap', inner, hgap', rfl⟩ :=
    startsWithSign_path.eq_append (Option.ne_none_iff_exists'.mpr ⟨_, hpath⟩)
  rw [colon_ahead_append hgap hgap'] at h
  obtain ⟨⟨text, found⟩, hpick, heq⟩ := Option.map_eq_some_iff.mp h
  cases heq
  obtain ⟨rest, hmem, hworth⟩ := OpenLabel.pick_eq_some hpick
  obtain ⟨rfl, hmatched⟩ := firstWorth_eq_some_iff.mp hworth
  obtain ⟨name, suffix, rfl, rfl, -⟩ := OpenLabel.mem_ends.mp hmem
  exact ⟨gap, gap', hgap, hgap', rfl, hmatched⟩

end Link

/-- An accepted line consists of the exit, a colon, the first room and a path. -/
theorem split_of_link? {s exit first text : List Char}
    (h : link? s = some (exit, first, text)) :
    ∃ gap gap' hops, isBlankText gap = true ∧ isBlankText gap' = true ∧
      s = exit ++ (gap ++ ':' :: (gap' ++ (first ++ hops))) ∧ text = trimEnd hops ∧
      (Link.matched hops).isSome = true := by
  cases s with
  | nil => cases h
  | cons c s =>
      rw [link?] at h
      split at h
      · rename_i hquote
        obtain ⟨⟨exit, first, hops⟩, hexit, heq⟩ := Option.map_eq_some_iff.mp h
        cases heq
        obtain ⟨⟨inner, first, hops⟩, hbody, heq⟩ := Option.map_eq_some_iff.mp hexit
        cases heq
        rw [Link.exit_ahead, OpenLabel.body_scan] at hbody
        obtain ⟨rest, hmem, hcolon⟩ := OpenLabel.pick_eq_some hbody
        obtain ⟨name, suffix, rfl, rfl, -⟩ := OpenLabel.mem_ends.mp hmem
        obtain ⟨gap, gap', hgap, hgap', rfl, hmatched⟩ := Link.eq_append_of_colon_ahead hcolon
        exact ⟨gap, gap', hops, hgap, hgap', rfl, rfl, hmatched⟩
      · cases h

/-- A written exit is found in front of a colon, and the first room behind it. -/
theorem link?_of_pick (exit : WrittenLabel) {inner text hops : List Char}
    (h : OpenLabel.pick Link.firstWorth (OpenLabel.ends inner) = some (text, hops)) :
    link? ('"' :: (exit.inner ++ (" : ".toList ++ '"' :: inner))) =
      some ('"' :: exit.inner, '"' :: text, trimEnd hops) := by
  have hworth : Link.exitWorth (" : ".toList ++ '"' :: inner) = some ('"' :: text, hops) := by
    have hsplit : " : ".toList ++ '"' :: inner = [' '] ++ ':' :: ([' '] ++ '"' :: inner) := by simp
    rw [Link.exitWorth, hsplit, Link.colon_ahead_append (by decide) (by decide), h]
    rfl
  have hends : Ends (" : ".toList ++ '"' :: inner) := by simp [Ends, isBlank_space]
  have htext : exit.inner ++ (" : ".toList ++ '"' :: inner) =
      exit.name.chars ++ '"' :: (exit.suffix ++ (" : ".toList ++ '"' :: inner)) := by
    simp [WrittenLabel.inner]
  rw [link?, if_pos rfl, Link.exit_ahead, OpenLabel.body_scan, htext,
    OpenLabel.pick_of_head? (OpenLabel.head?_ends (exit.plainParts hends)) hworth]
  rfl

end Gridwright.Line
