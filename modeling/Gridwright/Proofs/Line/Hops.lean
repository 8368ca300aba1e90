import Gridwright.Proofs.Line.Paths

/-!
# Hops that are searched for

The search for hops ends every label at its first quote and takes as much of a suffix as there is:
the hops it finds are those whose labels could not end anywhere else (`hop?_eq_some_iff`).  So it
finds a path whose labels are all of this kind (`hops_of_plain`), and no other path
(`Path.plain_of_hops_eq`).
-/

namespace Gridwright.Line

open Gridwright.Text

/-! ### The hop at the front of a text -/

theorem suffixOf_append_drop (s : List Char) : suffixOf s ++ s.drop (suffixOf s).length = s := by
  refine List.prefix_iff_eq_append.mp ?_
  cases s with
  | nil => exact List.nil_prefix
  | cons c s =>
      rw [suffixOf]
      split
      · exact (List.prefix_cons_inj c).mpr (List.takeWhile_prefix _)
      · exact List.nil_prefix

theorem plainParts_suffixOf (s : List Char) :
    PlainParts [] (suffixOf s) (s.drop (suffixOf s).length) := by
  cases s with
  | nil => exact ⟨⟨by simp, by simp [suffixOf], by simp [suffixOf]⟩, by simp, by simp⟩
  | cons c s =>
      cases hc : startsSuffix c with
      | true =>
          have hsuffix : suffixOf (c :: s) = c :: s.takeWhile (!isBlank ·) := if_pos hc
          have hrest : (c :: s).drop (suffixOf (c :: s)).length = s.dropWhile (!isBlank ·) := by
            rw [hsuffix, List.length_cons, List.drop_succ_cons]
            exact List.append_cancel_left
              ((List.prefix_iff_eq_append.mp (List.takeWhile_prefix _)).trans
                List.takeWhile_append_dropWhile.symm)
          have hsolid : ∀ d ∈ s.takeWhile (!isBlank ·), isBlank d = false :=
            fun d hd => by simpa using List.mem_takeWhile_imp hd
          rw [hrest, hsuffix]
          refine ⟨⟨by simp, ?_, by simpa using hc⟩, by simp, ?_⟩
          · rw [List.forall_mem_cons]
            exact ⟨not_isBlank_of_startsSuffix hc, hsolid⟩
          · intro d hd
            have hblank := List.head?_dropWhile_not (!isBlank ·) s
            rw [Option.mem_def.mp hd] at hblank
            simpa using hblank
      | false =>
          have hempty : suffixOf (c :: s) = [] := by rw [suffixOf, hc, if_neg Bool.false_ne_true]
          rw [hempty]
          exact ⟨⟨by simp, by simp, by simp⟩, by simp, by simpa using hc⟩

theorem suffixOf_of_plain {name suffix rest : List Char} (h : PlainParts name suffix rest) :
    suffixOf (suffix ++ rest) = suffix := by
  have hhead := OpenLabel.head?_suffixEnds (plainParts_suffixOf (suffix ++ rest))
  rw [suffixOf_append_drop, OpenLabel.head?_suffixEnds h] at hhead
  exact (Prod.mk.inj (Option.some.inj hhead)).1.symm

/-- A label that ends at its first quote and takes as much of a suffix as there is could not end
anywhere else. -/
theorem firstLabel?_eq_some_iff {s text rest : List Char} :
    firstLabel? s = some (text, rest) ↔ ∃ name suffix, PlainParts name suffix rest ∧
      text = '"' :: (name ++ '"' :: suffix) ∧ s = '"' :: (name ++ '"' :: (suffix ++ rest)) := by
  constructor
  · intro h
    unfold firstLabel? at h
    split at h
    · rename_i inner
      split at h
      · rename_i behind hbehind
        cases h
        have hinside : ∀ c ∈ inner.takeWhile insideQuotes, c ≠ '"' ∧ c ≠ '\n' := by
          intro c hc
          simpa [insideQuotes] using List.mem_takeWhile_imp hc
        have hsuffix := plainParts_suffixOf behind
        refine ⟨inner.takeWhile insideQuotes, suffixOf behind, ?_, rfl, ?_⟩
        · exact ⟨⟨fun hfeed => (hinside _ hfeed).2 rfl, hsuffix.solid, hsuffix.starts⟩,
            fun hquote => (hinside _ hquote).1 rfl, hsuffix.reaches⟩
        · rw [suffixOf_append_drop, ← hbehind, List.takeWhile_append_dropWhile]
      · cases h
    · cases h
  · rintro ⟨name, suffix, hparts, rfl, rfl⟩
    have hinside : ∀ c ∈ name, insideQuotes c = true := by
      intro c hc
      simpa [insideQuotes] using hparts.plain c hc
    have hdrop : (name ++ '"' :: (suffix ++ rest)).dropWhile insideQuotes =
        '"' :: (suffix ++ rest) := by
      rw [List.dropWhile_append_of_pos hinside]
      rfl
    have htake : (name ++ '"' :: (suffix ++ rest)).takeWhile insideQuotes = name := by
      rw [List.takeWhile_append_of_pos hinside]
      exact List.append_nil name
    simp only [firstLabel?, hdrop, htake, suffixOf_of_plain hparts, List.drop_left]
    rfl

theorem hop?_eq_some_iff {s rest : List Char} {hop : Hop} :
    hop? s = some (hop, rest) ↔ StartsWithHop PlainParts s hop rest := by
  constructor
  · intro h
    unfold hop? at h
    split at h
    · cases h
    · rename_i twoWay behind harrow
      split at h
      · cases h
      · rename_i text left hlabel
        cases h
        obtain ⟨gap, hgap, hbehind⟩ := exists_gap behind
        obtain ⟨name, suffix, hparts, rfl, hquoted⟩ := firstLabel?_eq_some_iff.mp hlabel
        rw [arrow?_eq_some_iff.mp harrow, hbehind, hquoted]
        exact .mk twoWay hgap hparts
  · rintro ⟨twoWay, hgap, hparts⟩
    simp only [hop?, arrow?_eq_some_iff.mpr rfl, trimStart_append_of_gap hgap,
      trimStart_cons_of_solid not_isBlank_quote,
      firstLabel?_eq_some_iff.mpr ⟨_, _, hparts, rfl, rfl⟩]

theorem isSome_firstLabel? {name : List Char} (hsingle : '\n' ∉ name) (s : List Char) :
    (firstLabel? ('"' :: (name ++ '"' :: s))).isSome = true := by
  -- The label ends at its first quote, which may stand inside the name.
  obtain ⟨front, behind, htext, hquote, hfeed⟩ : ∃ front behind,
      name ++ '"' :: s = front ++ '"' :: behind ∧ '"' ∉ front ∧ '\n' ∉ front := by
    by_cases hname : '"' ∈ name
    · obtain ⟨front, behind, rfl, hquote⟩ := List.eq_append_cons_of_mem hname
      exact ⟨front, behind ++ '"' :: s, by simp, hquote,
        fun hfeed => hsingle (List.mem_append_left _ hfeed)⟩
    · exact ⟨name, s, rfl, hname, hsingle⟩
  have hsuffix := plainParts_suffixOf behind
  rw [htext, ← suffixOf_append_drop behind, Option.isSome_iff_exists]
  exact ⟨_, firstLabel?_eq_some_iff.mpr ⟨front, suffixOf behind,
    ⟨⟨hfeed, hsuffix.solid, hsuffix.starts⟩, hquote, hsuffix.reaches⟩, rfl, rfl⟩⟩

namespace StartsWithHop

variable {room room' : List Char → List Char → List Char → Prop} {s rest rest' : List Char}
  {hop : Hop}

theorem split (h : StartsWithHop room s hop rest) :
    ∃ behind, arrow? s = some (hop.twoWay, behind) ∧
      trimStart behind = hop.room.text.toList ++ rest := by
  obtain ⟨twoWay, hgap, hparts⟩ := h
  refine ⟨_, arrow?_eq_some_iff.mpr rfl, ?_⟩
  rw [trimStart_append_of_gap hgap, trimStart_cons_of_solid not_isBlank_quote]
  simp

/-- A hop settles what stands behind it. -/
theorem rest_eq (h : StartsWithHop room s hop rest) (h' : StartsWithHop room' s hop rest') :
    rest = rest' := by
  obtain ⟨behind, harrow, hbehind⟩ := h.split
  obtain ⟨behind', harrow', hbehind'⟩ := h'.split
  rw [harrow] at harrow'
  cases harrow'
  exact List.append_cancel_left (hbehind.symm.trans hbehind')

theorem trimStart_eq (h : StartsWithHop room s hop rest) : trimStart s = s := by
  obtain ⟨twoWay, hgap, hparts⟩ := h
  exact trimStart_arrowText twoWay _

/-- Where there is a hop, whichever way its label ends, the search finds one. -/
theorem isSome_hop? (h : StartsWithHop AnyParts s hop rest) : (hop? s).isSome = true := by
  obtain @⟨gap, name, suffix, _, twoWay, hgap, hparts⟩ := h
  obtain ⟨⟨text, left⟩, hlabel⟩ := Option.isSome_iff_exists.mp
    (isSome_firstLabel? hparts.single (suffix ++ rest))
  simp only [hop?, arrow?_eq_some_iff.mpr rfl, trimStart_append_of_gap hgap,
    trimStart_cons_of_solid not_isBlank_quote, hlabel, Option.isSome_some]

/-- A hop is a part of the text that is a hop also in front of something else. -/
theorem exists_front (h : StartsWithHop PlainParts s hop rest) :
    ∃ front, s = front ++ rest ∧ ∀ behind, StartsWithHop AnyParts (front ++ behind) hop behind := by
  obtain @⟨gap, name, suffix, _, twoWay, hgap, hparts⟩ := h
  refine ⟨arrowText twoWay ++ (gap ++ '"' :: (name ++ '"' :: suffix)), by simp, ?_⟩
  intro behind
  have hhop : StartsWithHop AnyParts
      (arrowText twoWay ++ (gap ++ '"' :: (name ++ '"' :: (suffix ++ behind)))) _ behind :=
    .mk twoWay hgap hparts.toLabelParts
  simpa using hhop

end StartsWithHop

/-! ### The hops of a text -/

theorem hops_cons_of_none {c : Char} {s : List Char} (h : hop? (c :: s) = none) :
    hops (c :: s) = hops s := by
  rw [hops]
  split
  · rename_i hop rest hfound
    rw [h] at hfound
    cases hfound
  · rfl

theorem hops_of_some {s rest : List Char} {hop : Hop} (h : hop? s = some (hop, rest)) :
    hops s = hop :: hops rest := by
  cases s with
  | nil => cases h
  | cons c s =>
      rw [hops]
      split
      · rename_i found left hfound
        rw [h] at hfound
        cases hfound
        rfl
      · rename_i hnone
        rw [h] at hnone
        cases hnone

theorem hop?_cons_of_blank {c : Char} (hc : isBlank c = true) (s : List Char) :
    hop? (c :: s) = none := by
  have harrow : arrow? (c :: s) = none := by
    cases hfound : arrow? (c :: s) with
    | none => rfl
    | some found =>
        have hsame := trimStart_arrowText found.1 found.2
        rw [← arrow?_eq_some_iff.mp hfound, trimStart_eq_self_iff] at hsame
        cases hc.symm.trans (hsame c rfl)
  rw [hop?, harrow]

theorem hops_trimStart (s : List Char) : hops (trimStart s) = hops s := by
  induction s with
  | nil => rfl
  | cons c s ih =>
      cases hc : isBlank c with
      | true => rw [trimStart_cons_of_blank hc, ih, hops_cons_of_none (hop?_cons_of_blank hc s)]
      | false => rw [trimStart_cons_of_solid hc]

theorem hops_of_gap {gap : List Char} (hgap : isBlankText gap = true) : hops gap = [] := by
  have hempty : trimStart gap = [] := List.dropWhile_eq_nil_iff.mpr (List.all_eq_true.mp hgap)
  rw [← hops_trimStart, hempty, hops]

/-- The hops of a path are found if none of its labels could end elsewhere. -/
theorem hops_of_plain {s : List Char} {path : List Hop} (h : Path PlainParts s path) :
    hops s = path := by
  induction h with
  | nil hgap => exact hops_of_gap hgap
  | cons hgap hhop hrest ih =>
      rw [← hops_trimStart, trimStart_append_of_gap hgap, hhop.trimStart_eq,
        hops_of_some (hop?_eq_some_iff.mpr hhop), ih]

/-- If a hop is found as it is, then its label could not end elsewhere. -/
theorem StartsWithHop.plain_of_hops_eq {gap s rest : List Char} {hop : Hop} {more : List Hop}
    (hgap : isBlankText gap = true) (hhop : StartsWithHop AnyParts s hop rest)
    (h : hops (gap ++ s) = hop :: more) :
    StartsWithHop PlainParts s hop rest ∧ hops rest = more := by
  obtain ⟨⟨found, rest'⟩, hfound⟩ := Option.isSome_iff_exists.mp hhop.isSome_hop?
  rw [← hops_trimStart, trimStart_append_of_gap hgap, hhop.trimStart_eq, hops_of_some hfound] at h
  obtain ⟨rfl, hmore⟩ := List.cons_eq_cons.mp h
  have hplain := hop?_eq_some_iff.mp hfound
  -- The same hop at the same place: both readings end there.
  cases hhop.rest_eq hplain
  exact ⟨hplain, hmore⟩

theorem Path.plain_of_hops_eq {s : List Char} {path : List Hop} (h : Path AnyParts s path)
    (hpath : hops s = path) : Path PlainParts s path := by
  induction h with
  | nil hgap => exact .nil hgap
  | cons hgap hhop hrest ih =>
      obtain ⟨hplain, hmore⟩ := hhop.plain_of_hops_eq hgap hpath
      exact .cons hgap hplain (ih hmore)

end Gridwright.Line
