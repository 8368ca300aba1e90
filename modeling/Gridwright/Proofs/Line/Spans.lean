import Gridwright.Proofs.Line.Hops

/-!
# When the hops that are found are those a line was accepted for

A link line is accepted for the sake of one path and then taken apart by a search for hops.  A
label of the path may end where what follows requires it, while the search does not look ahead.  So
the two can differ, and whenever they do the search leaves out a part of the line
(`glued_arrow_left_out`).  They agree exactly if the hops that were found make up the text, a gap at
its end apart, and exactly if no label of the path could have ended anywhere else
(`hops_eq_matched_iff`).
-/

namespace Gridwright.Line

open Gridwright.Text

/-! ### Where the hops of a text stand -/

/-- The hops of a text, each with the part of the text where it stands and the gap in front. -/
def hopSpans : List Char → List (List Char × Hop)
  | [] => []
  | c :: s =>
    match _h : hop? (trimStart (c :: s)) with
    | some (hop, rest) =>
      ((c :: s).take ((c :: s).length - rest.length), hop) :: hopSpans rest
    | none => hopSpans s
termination_by s => s.length
decreasing_by
  · have hlength : (trimStart (c :: s)).length ≤ (c :: s).length :=
      (List.dropWhile_sublist _).length_le
    exact (hop?_length _h).trans_le hlength
  · simp

/-- The hops of a text make up the text, a gap at its end apart. -/
def Covered (s : List Char) : Prop :=
  ∃ gap, isBlankText gap = true ∧ s = ((hopSpans s).map (·.1)).flatten ++ gap

theorem map_hopSpans (s : List Char) : (hopSpans s).map (·.2) = hops s := by
  fun_induction hopSpans s with
  | case1 => rw [hops]; rfl
  | case2 c s hop rest h ih => rw [List.map_cons, ih, ← hops_of_some h, hops_trimStart]
  | case3 c s h ih =>
      rw [ih]
      cases hc : isBlank c with
      | true => rw [hops_cons_of_none (hop?_cons_of_blank hc s)]
      | false =>
          rw [trimStart_cons_of_solid hc] at h
          rw [hops_cons_of_none h]

theorem hopSpans_append {gap front rest : List Char} {hop : Hop} (hgap : isBlankText gap = true)
    (hhop : StartsWithHop PlainParts (front ++ rest) hop rest) :
    hopSpans (gap ++ (front ++ rest)) = (gap ++ front, hop) :: hopSpans rest := by
  have hfound : hop? (trimStart (gap ++ (front ++ rest))) = some (hop, rest) := by
    rw [trimStart_append_of_gap hgap, hhop.trimStart_eq]
    exact hop?_eq_some_iff.mpr hhop
  have htaken : (gap ++ (front ++ rest)).take ((gap ++ (front ++ rest)).length - rest.length) =
      gap ++ front := by
    simp [← List.append_assoc]
  generalize gap ++ (front ++ rest) = s at hfound htaken
  cases s with
  | nil => cases hfound
  | cons c s =>
      rw [hopSpans]
      split
      · rename_i hop' rest' hfound'
        rw [hfound] at hfound'
        cases hfound'
        rw [htaken]
      · rename_i hnone
        rw [hfound] at hnone
        cases hnone

theorem hopSpans_cons_of_none {c : Char} {s : List Char} (h : hop? (trimStart (c :: s)) = none) :
    hopSpans (c :: s) = hopSpans s := by
  rw [hopSpans]
  split
  · rename_i hop rest hfound
    rw [h] at hfound
    cases hfound
  · rfl

/-- The hop that is found next stands behind a gap. -/
theorem exists_span {s rest : List Char} {hop : Hop} (h : hop? (trimStart s) = some (hop, rest)) :
    ∃ gap front, isBlankText gap = true ∧ s = gap ++ (front ++ rest) ∧
      StartsWithHop PlainParts (front ++ rest) hop rest ∧
      ∀ behind, StartsWithHop AnyParts (front ++ behind) hop behind := by
  obtain ⟨gap, hgap, hs⟩ := exists_gap s
  have hhop := hop?_eq_some_iff.mp h
  obtain ⟨front, hfront, hany⟩ := hhop.exists_front
  rw [hfront] at hs hhop
  exact ⟨gap, front, hgap, hs, hhop, hany⟩

theorem mem_hopSpans {s taken : List Char} {hop : Hop} (h : (taken, hop) ∈ hopSpans s) :
    ∃ gap front, isBlankText gap = true ∧ taken = gap ++ front ∧
      ∀ behind, StartsWithHop AnyParts (front ++ behind) hop behind := by
  induction s using hopSpans.induct with
  | case1 =>
      rw [hopSpans] at h
      cases h
  | case2 c s next rest hfound ih =>
      obtain ⟨gap, front, hgap, hs, hplain, hany⟩ := exists_span hfound
      rw [hs, hopSpans_append hgap hplain] at h
      rcases List.mem_cons.mp h with heq | hmem
      · cases heq
        exact ⟨gap, front, hgap, rfl, hany⟩
      · exact ih hmem
  | case3 c s hnone ih =>
      rw [hopSpans_cons_of_none hnone] at h
      exact ih h

/-- If the hops make up the text, then none of their labels could end elsewhere. -/
theorem path_of_covered {s : List Char} (h : Covered s) : Path PlainParts s (hops s) := by
  obtain ⟨gap, hgap, htext⟩ := h
  induction s using hopSpans.induct with
  | case1 =>
      rw [hops]
      exact .nil rfl
  | case2 c s hop rest hfound ih =>
      obtain ⟨before, front, hbefore, hs, hplain, -⟩ := exists_span hfound
      have hhops : hops (c :: s) = hop :: hops rest := by rw [← hops_trimStart, hops_of_some hfound]
      rw [hs, hopSpans_append hbefore hplain] at htext
      rw [hhops, hs]
      refine .cons hbefore hplain (ih ?_)
      simpa using htext
  | case3 c s hnone ih =>
      rw [hopSpans_cons_of_none hnone] at htext
      cases hspans : hopSpans s with
      | nil =>
          rw [hspans] at htext
          rw [htext, List.map_nil, List.flatten_nil, List.nil_append, hops_of_gap hgap]
          exact .nil hgap
      | cons span more =>
          -- The first hop would make up the beginning of the text, where there is no hop.
          obtain ⟨taken, hop⟩ := span
          have hmem : (taken, hop) ∈ hopSpans s := by rw [hspans]; exact List.mem_cons_self
          obtain ⟨before, front, hbefore, rfl, hany⟩ := mem_hopSpans hmem
          rw [hspans] at htext
          simp only [List.map_cons, List.flatten_cons, List.append_assoc] at htext
          have hhop := hany ((more.map (·.1)).flatten ++ gap)
          have hsome := hhop.isSome_hop?
          rw [← hhop.trimStart_eq, ← trimStart_append_of_gap hbefore, ← htext, hnone] at hsome
          cases hsome

theorem covered_of_path {s : List Char} {path : List Hop} (h : Path PlainParts s path) :
    Covered s := by
  induction h with
  | @nil gap hgap =>
      have hspans : hopSpans gap = [] :=
        List.map_eq_nil_iff.mp ((map_hopSpans gap).trans (hops_of_gap hgap))
      exact ⟨gap, hgap, by rw [hspans]; rfl⟩
  | cons hgap hhop hrest ih =>
      obtain ⟨gap', hgap', htext⟩ := ih
      obtain ⟨front, rfl, -⟩ := hhop.exists_front
      refine ⟨gap', hgap', ?_⟩
      rw [hopSpans_append hgap hhop]
      simpa using htext

/-! ### Accepted lines -/

theorem trimEnd_of_trim_append {front back : List Char}
    (h : trim (front ++ back) = front ++ back) : trimEnd back = back := by
  refine trimEnd_eq_self_iff.mpr ?_
  by_cases hback : back = []
  · simp [hback]
  · have hend := (trim_eq_self_iff.mp h).2
    rwa [List.getLast?_append_of_ne_nil _ hback] at hend

/-- If the hops that are found make up the text, then it was accepted for them. -/
theorem hops_eq_of_covered {s : List Char} {path : List Hop} (hmatched : Link.matched s = some path)
    (h : Covered s) : hops s = path := by
  have hhops := Link.following_of_plain (path_of_covered h)
  rw [Link.following_of_matched hmatched] at hhops
  exact (Option.some.inj hhops).symm

/-- In an accepted line the hops that are found are the hops for which it was accepted exactly if
they make up all that stands behind the first room, and exactly if none of the labels there could
end anywhere else. -/
theorem hops_eq_matched_iff {line exit first text : List Char} (htrim : trim line = line)
    (hlink : link? line = some (exit, first, text)) :
    ∃ gap gap' path, isBlankText gap = true ∧ isBlankText gap' = true ∧
      line = exit ++ (gap ++ ':' :: (gap' ++ (first ++ text))) ∧
      Link.matched text = some path ∧ Path AnyParts text path ∧
      (hopSpans text).map (·.2) = hops text ∧
      (hops text = path ↔ Covered text) ∧ (Covered text ↔ Path PlainParts text path) := by
  obtain ⟨gap, gap', tail, hgap, hgap', hline, rfl, hsome⟩ := split_of_link? hlink
  have htail : trimEnd tail = tail := by
    have hfront : line = (exit ++ (gap ++ ':' :: (gap' ++ first))) ++ tail := by simp [hline]
    rw [hfront] at htrim
    exact trimEnd_of_trim_append htrim
  rw [htail]
  obtain ⟨path, hmatched⟩ := Option.isSome_iff_exists.mp hsome
  have hpath := Link.path_of_matched hmatched
  refine ⟨gap, gap', path, hgap, hgap', hline, hmatched, hpath, map_hopSpans tail, ?_, ?_⟩
  · constructor
    · intro hhops
      exact covered_of_path (hpath.plain_of_hops_eq hhops)
    · exact hops_eq_of_covered hmatched
  · constructor
    · intro hcovered
      exact hpath.plain_of_hops_eq (hops_eq_of_covered hmatched hcovered)
    · exact covered_of_path

theorem hops_eq_matched_sample :
    trim "\"x\":\"A\"->\"B\"y <->\"C\"".toList = "\"x\":\"A\"->\"B\"y <->\"C\"".toList ∧
    link? "\"x\":\"A\"->\"B\"y <->\"C\"".toList =
      some ("\"x\"".toList, "\"A\"".toList, "->\"B\"y <->\"C\"".toList) ∧
    hops "->\"B\"y <->\"C\"".toList = [⟨false, ⟨"\"B\"y"⟩⟩, ⟨true, ⟨"\"C\""⟩⟩] ∧
    Covered "->\"B\"y <->\"C\"".toList := by
  have htrim : trim "\"x\":\"A\"->\"B\"y <->\"C\"".toList =
      "\"x\":\"A\"->\"B\"y <->\"C\"".toList := by
    decide +kernel
  have hlink : link? "\"x\":\"A\"->\"B\"y <->\"C\"".toList =
      some ("\"x\"".toList, "\"A\"".toList, "->\"B\"y <->\"C\"".toList) := by
    decide +kernel
  have hhops : hops "->\"B\"y <->\"C\"".toList =
      [⟨false, ⟨"\"B\"y"⟩⟩, ⟨true, ⟨"\"C\""⟩⟩] := by
    decide +kernel
  have hmatched : Link.matched "->\"B\"y <->\"C\"".toList =
      some [⟨false, ⟨"\"B\"y"⟩⟩, ⟨true, ⟨"\"C\""⟩⟩] := by
    decide +kernel
  obtain ⟨-, -, path, -, -, -, hpath, -, -, hcovered, -⟩ := hops_eq_matched_iff htrim hlink
  rw [hmatched] at hpath
  cases hpath
  exact ⟨htrim, hlink, hhops, hcovered.mp hhops⟩

/-- An arrow that is glued to the suffix of a label belongs to the suffix when hops are searched
for, although the line was accepted for the arrow. -/
theorem glued_arrow_left_out :
    link? "\"x\" : \"A\" -> \"B\"y-> \"C\"".toList =
      some ("\"x\"".toList, "\"A\"".toList, " -> \"B\"y-> \"C\"".toList) ∧
    Link.matched " -> \"B\"y-> \"C\"".toList =
      some [⟨false, ⟨"\"B\"y"⟩⟩, ⟨false, ⟨"\"C\""⟩⟩] ∧
    hops " -> \"B\"y-> \"C\"".toList = [⟨false, ⟨"\"B\"y->"⟩⟩] ∧
    ¬ Covered " -> \"B\"y-> \"C\"".toList := by
  have hspans : hopSpans " -> \"B\"y-> \"C\"".toList =
      [(" -> \"B\"y->".toList, ⟨false, ⟨"\"B\"y->"⟩⟩)] := by
    decide +kernel
  refine ⟨by decide +kernel, by decide +kernel, by decide +kernel, ?_⟩
  rintro ⟨gap, hgap, htext⟩
  rw [hspans] at htext
  have hrest : gap = " \"C\"".toList := by simpa using htext.symm
  rw [hrest] at hgap
  revert hgap
  decide

end Gridwright.Line
