import Gridwright.Proofs.ExitName.Brackets

/-!
# The segments of a full name

The name of an exit is written with semicolons: the name that is shown, the alias that is derived
from it, and the aliases that were given.  Semicolons divide, so writing and reading fit together
only if no segment has a semicolon in it and none is empty.  `full_splits_into_segments` says that
a full name falls into just these segments, whatever the declared name and the options are.

Which letters are put in brackets is said by two predicates on the name itself, `HasBrackets` and
`TakesBrackets`, and not by the words that are searched for them.
-/

namespace Gridwright.ExitName

open Gridwright.Text

/-! ### Declared names -/

/-- The name in front of the first semicolon. -/
def baseName (declared : List Char) : List Char := declared.takeWhile (· != ';')

/-- The aliases behind the first semicolon, with the empty ones among them. -/
def givenSegments (declared : List Char) : List (List Char) :=
  pieces (· == ';') (declared.dropWhile (· != ';')).tail

/-- Somewhere in the name an opening and a closing bracket have solid text between them. -/
def HasBrackets (name : List Char) : Prop :=
  ∃ before body after, name = before ++ '<' :: (body ++ '>' :: after) ∧
    body ≠ [] ∧ ∀ c ∈ body, isBlank c = false

/-- Brackets are to be put around the first letters of a name. -/
def TakesBrackets (options : NamingOptions) (name : List Char) : Prop :=
  options.autoBrackets = true ∧ ¬ (options.detectBrackets = true ∧ HasBrackets name)

/-- What is shown of a name, and the alias that is derived from it. -/
structure Derives (options : NamingOptions) (name shown derived : List Char) : Prop where
  verbatim : ¬ TakesBrackets options name → shown = name
  /-- Every word is shown with its first letter in brackets, and the alias is these letters. -/
  initials : TakesBrackets options name → ∃ letters : List (Char × List Char),
    words name = letters.map (fun (c, rest) => c :: rest) ∧
      shown = join [' '] (letters.map fun (c, rest) => '<' :: c :: '>' :: rest) ∧
      derived = letters.map (·.1)
  marked : options.detectBrackets = true → HasBrackets name →
    derived = (bracketedParts name).flatten
  underived : ¬ TakesBrackets options name →
    ¬ (options.detectBrackets = true ∧ HasBrackets name) → derived = []

/-! ### Brackets in a name -/

theorem eq_append_of_dropWhile {c d : Char} {s rest : List Char}
    (h : s.dropWhile (· != c) = d :: rest) : s = s.takeWhile (· != c) ++ c :: rest := by
  have hd : d = c := by
    have := List.head?_dropWhile_not (· != c) s
    rw [h] at this
    simpa using this
  have hs := List.takeWhile_append_dropWhile (p := (· != c)) (l := s)
  rw [h, hd] at hs
  exact hs.symm

theorem exists_dropWhile_eq (c : Char) (before rest : List Char) :
    ∃ front, (before ++ c :: rest).dropWhile (· != c) = c :: (front ++ rest) := by
  induction before with
  | nil => exact ⟨[], dropWhile_append_of_not_mem List.not_mem_nil rest⟩
  | cons d before ih =>
      by_cases hd : d = c
      · exact ⟨before ++ [c], by simp [hd]⟩
      · obtain ⟨front, hfront⟩ := ih
        refine ⟨front, ?_⟩
        rw [List.cons_append, List.dropWhile_cons_of_pos (by simpa using hd), hfront]

theorem eq_append_of_bracketed? {word body : List Char} (h : bracketed? word = some body) :
    body ≠ [] ∧ ∃ before after, word = before ++ '<' :: (body ++ '>' :: after) := by
  unfold bracketed? at h
  split at h
  · cases h
  · rename_i c inner hopen
    split at h
    · cases h
    · rename_i d rest hclose
      split at h
      · cases h
      · rename_i hne
        cases h
        have hword := eq_append_of_dropWhile hopen
        have hinner := congrArg List.reverse (eq_append_of_dropWhile hclose)
        rw [List.reverse_reverse, List.reverse_append, List.reverse_cons, List.append_assoc,
          List.singleton_append] at hinner
        refine ⟨by simpa using hne, word.takeWhile (· != '<'),
          (inner.reverse.takeWhile (· != '>')).reverse, ?_⟩
        rw [← hinner]
        exact hword

theorem isSome_bracketed? (before after : List Char) {body : List Char} (hbody : body ≠ []) :
    (bracketed? (before ++ '<' :: (body ++ '>' :: after))).isSome = true := by
  obtain ⟨front, hopen⟩ := exists_dropWhile_eq '<' before (body ++ '>' :: after)
  obtain ⟨back, hclose⟩ := exists_dropWhile_eq '>' after.reverse (front ++ body).reverse
  have hinner : (front ++ (body ++ '>' :: after)).reverse =
      after.reverse ++ '>' :: (front ++ body).reverse := by simp
  have hne : (back ++ (front ++ body).reverse).isEmpty = false := by simp [hbody]
  simp only [bracketed?, hopen, hinner, hclose, hne]
  rfl

/-- Text in front of a name does not undo its brackets. -/
theorem bracketedParts_cons_ne_nil {s : List Char} (h : bracketedParts s ≠ []) (c : Char) :
    bracketedParts (c :: s) ≠ [] := by
  rw [bracketedParts_eq] at h ⊢
  rw [pieces_cons]
  split
  · exact h
  · obtain ⟨first, rest, hpieces⟩ := List.exists_cons_of_ne_nil (pieces_ne_nil isBlank s)
    rw [hpieces] at h ⊢
    intro hnone
    apply h
    rw [extendFirst, List.filterMap_eq_nil_iff] at hnone
    rw [List.filterMap_eq_nil_iff]
    rcases List.forall_mem_cons.mp hnone with ⟨hlonger, hrest⟩
    refine List.forall_mem_cons.mpr ⟨?_, hrest⟩
    cases hfirst : bracketed? first with
    | none => rfl
    | some body =>
        obtain ⟨hbody, before, after, rfl⟩ := eq_append_of_bracketed? hfirst
        have hsome := isSome_bracketed? (c :: before) after hbody
        rw [List.cons_append, hlonger] at hsome
        cases hsome

/-- The words of a name yield something if and only if the name has brackets. -/
theorem bracketedParts_ne_nil_iff (name : List Char) :
    bracketedParts name ≠ [] ↔ HasBrackets name := by
  constructor
  · intro h
    obtain ⟨body, hmem⟩ := List.exists_mem_of_ne_nil _ h
    obtain ⟨word, hword, hbracketed⟩ := List.mem_filterMap.mp hmem
    obtain ⟨front, back, hname⟩ := infix_of_mem_words hword
    obtain ⟨hbody, before, after, hsplit⟩ := eq_append_of_bracketed? hbracketed
    refine ⟨front ++ before, body, after ++ back, ?_, hbody, ?_⟩
    · rw [← hname, hsplit]
      simp
    · intro c hc
      apply not_separator_of_mem_pieces (List.mem_filter.mp hword).1
      rw [hsplit]
      simp [hc]
  · rintro ⟨before, body, after, rfl, hbody, hsolid⟩
    induction before with
    | nil =>
        obtain ⟨c, hc⟩ := List.exists_mem_of_ne_nil body hbody
        intro hnone
        have hmem := mem_bracketedParts_of_solid hsolid hc after
        rw [List.nil_append] at hnone
        rw [hnone] at hmem
        cases hmem
    | cons c before ih => exact bracketedParts_cons_ne_nil ih c

/-! ### What is shown and derived -/

theorem display_of_marked {options : NamingOptions} {name : List Char}
    (hdetect : options.detectBrackets = true) (hname : HasBrackets name) :
    display options name = (name, (bracketedParts name).flatten) := by
  have hparts := (bracketedParts_ne_nil_iff name).mpr hname
  simp [display, hdetect, hparts]

theorem display_of_unmarked {options : NamingOptions} {name : List Char}
    (h : ¬ (options.detectBrackets = true ∧ HasBrackets name)) :
    display options name =
      if options.autoBrackets then (join [' '] ((words name).map bracketFirst), initials name)
      else (name, []) := by
  rw [← bracketedParts_ne_nil_iff] at h
  have hskip : (options.detectBrackets && !(bracketedParts name).isEmpty) = false := by
    simpa using h
  rw [display, hskip]
  rfl

theorem exists_letters (name : List Char) :
    ∃ letters : List (Char × List Char),
      words name = letters.map (fun (c, rest) => c :: rest) ∧
      (words name).map bracketFirst = letters.map (fun (c, rest) => '<' :: c :: '>' :: rest) ∧
      initials name = letters.map (·.1) := by
  have hsolid : ∀ word ∈ words name, word ≠ [] := fun word => ne_nil_of_mem_words
  unfold initials
  generalize words name = found at hsolid ⊢
  induction found with
  | nil => exact ⟨[], rfl, rfl, rfl⟩
  | cons word rest ih =>
      rcases List.forall_mem_cons.mp hsolid with ⟨hword, hrest⟩
      obtain ⟨c, tail, rfl⟩ := List.exists_cons_of_ne_nil hword
      obtain ⟨letters, hwords, hshown, hinitials⟩ := ih hrest
      refine ⟨(c, tail) :: letters, ?_, ?_, ?_⟩
      · rw [hwords, List.map_cons]
      · rw [List.map_cons, hshown, bracketFirst, List.map_cons]
      · rw [List.filterMap_cons, List.head?_cons, hinitials, List.map_cons]

theorem derives_display (options : NamingOptions) (name : List Char) :
    Derives options name (display options name).1 (display options name).2 := by
  by_cases hmarked : options.detectBrackets = true ∧ HasBrackets name
  · rw [display_of_marked hmarked.1 hmarked.2]
    exact ⟨fun _ => rfl, fun htakes => (htakes.2 hmarked).elim, fun _ _ => rfl,
      fun _ hnone => (hnone hmarked).elim⟩
  · have hfound : options.detectBrackets = true → HasBrackets name →
        (display options name).2 = (bracketedParts name).flatten :=
      fun hdetect hname => (hmarked ⟨hdetect, hname⟩).elim
    cases hauto : options.autoBrackets with
    | true =>
        have htakes : TakesBrackets options name := ⟨hauto, hmarked⟩
        have hdisplay := display_of_unmarked hmarked
        rw [hauto, if_pos rfl] at hdisplay
        refine ⟨fun hnot => (hnot htakes).elim, fun _ => ?_, hfound,
          fun hnot => (hnot htakes).elim⟩
        obtain ⟨letters, hwords, hshown, hinitials⟩ := exists_letters name
        exact ⟨letters, hwords, by rw [hdisplay, hshown], by rw [hdisplay, hinitials]⟩
    | false =>
        have hnot : ¬ TakesBrackets options name := fun htakes => by
          rw [htakes.1] at hauto
          cases hauto
        have hdisplay := display_of_unmarked hmarked
        rw [hauto, if_neg Bool.false_ne_true] at hdisplay
        exact ⟨fun _ => by rw [hdisplay], fun htakes => (hnot htakes).elim, hfound,
          fun _ _ => by rw [hdisplay]⟩

/-! ### Segments without semicolons -/

theorem mem_of_mem_bracketedParts {name : List Char} {c : Char}
    (h : c ∈ (bracketedParts name).flatten) : c ∈ name := by
  obtain ⟨body, hbody, hc⟩ := List.mem_flatten.mp h
  obtain ⟨word, hword, hbracketed⟩ := List.mem_filterMap.mp hbody
  obtain ⟨-, before, after, hsplit⟩ := eq_append_of_bracketed? hbracketed
  apply (infix_of_mem_words hword).subset
  rw [hsplit]
  simp [hc]

/-- A name without semicolons is shown without semicolons, and its alias has none either. -/
theorem semicolon_not_mem_display (options : NamingOptions) {name : List Char}
    (hname : ';' ∉ name) :
    ';' ∉ (display options name).1 ∧ ';' ∉ (display options name).2 := by
  unfold display
  split
  · exact ⟨hname, fun h => hname (mem_of_mem_bracketedParts h)⟩
  · split
    · obtain ⟨letters, hwords, hshown, hinitials⟩ := exists_letters name
      have hfree : ∀ pair ∈ letters, ';' ∉ pair.1 :: pair.2 := by
        intro pair hpair h
        have hword : pair.1 :: pair.2 ∈ words name := by
          rw [hwords]
          exact List.mem_map.mpr ⟨pair, hpair, rfl⟩
        exact hname ((infix_of_mem_words hword).subset h)
      constructor
      · intro h
        rw [hshown] at h
        rcases mem_join h with h | ⟨text, htext, hmem⟩
        · cases h
        · obtain ⟨pair, hpair, rfl⟩ := List.mem_map.mp htext
          apply hfree pair hpair
          simpa using hmem
      · intro h
        rw [hinitials] at h
        obtain ⟨pair, hpair, hc⟩ := List.mem_map.mp h
        exact hfree pair hpair (hc ▸ List.mem_cons_self)
    · exact ⟨hname, List.not_mem_nil⟩

theorem semicolon_not_mem_baseName (declared : List Char) : ';' ∉ baseName declared := by
  intro h
  have hsign := List.all_eq_true.mp (List.all_takeWhile (p := (· != ';')) (l := declared)) ';' h
  cases hsign

/-! ### Full names -/

/-- The segments of a full name. -/
def segments (options : NamingOptions) (declared : List Char) : List (List Char) :=
  ((display options (baseName declared)).1 :: (display options (baseName declared)).2 ::
    givenSegments declared).filter (!·.isEmpty)

theorem parts_eq_segments (options : NamingOptions) (declared : List Char) :
    parts options declared = segments options declared := by
  have hbase : pieces (· == ';') (baseName declared) = [baseName declared] :=
    pieces_of_not_mem (semicolon_not_mem_baseName declared)
  cases hdrop : declared.dropWhile (· != ';') with
  | nil =>
      have hwhole := List.takeWhile_append_dropWhile (p := (· != ';')) (l := declared)
      rw [hdrop, List.append_nil] at hwhole
      have hpieces : pieces (· == ';') declared = [baseName declared] := by
        rw [← hbase, baseName, hwhole]
      rw [parts, hpieces, segments, givenSegments, hdrop, List.tail_nil, pieces_nil]
      simp [List.filter_cons]
  | cons d behind =>
      have hpieces : pieces (· == ';') declared =
          baseName declared :: pieces (· == ';') behind :=
        calc pieces (· == ';') declared
            = pieces (· == ';') (baseName declared ++ ';' :: behind) :=
              congrArg (pieces (· == ';')) (eq_append_of_dropWhile hdrop)
          _ = pieces (· == ';') (baseName declared) ++ pieces (· == ';') behind :=
              pieces_append_separator (by rfl) _ _
          _ = baseName declared :: pieces (· == ';') behind := by
              rw [hbase, List.singleton_append]
      rw [parts, hpieces, segments, givenSegments, hdrop, List.tail_cons]

theorem semicolon_not_mem_segments {options : NamingOptions} {declared segment : List Char}
    (h : segment ∈ segments options declared) : ';' ∉ segment := by
  have hdisplay := semicolon_not_mem_display options (semicolon_not_mem_baseName declared)
  rcases List.mem_cons.mp (List.mem_filter.mp h).1 with rfl | hmore
  · exact hdisplay.1
  · rcases List.mem_cons.mp hmore with rfl | hgiven
    · exact hdisplay.2
    · intro hsign
      have := not_separator_of_mem_pieces hgiven hsign
      cases this

/-- Cut at its semicolons, the full name of an exit gives the name that is shown, the alias that is
derived and the aliases that were given, those that are empty left out; and its short form is the
first of them. -/
theorem full_splits_into_segments (options : NamingOptions) (declared : String) :
    pieces (· == ';') (full options declared).toList =
        (if segments options declared.toList = [] then [[]]
          else segments options declared.toList) ∧
      short (full options declared) =
        String.ofList ((segments options declared.toList).headD []) ∧
      Derives options (baseName declared.toList)
        (display options (baseName declared.toList)).1
        (display options (baseName declared.toList)).2 := by
  have hfull : (full options declared).toList =
      join [';'] (segments options declared.toList) := by
    rw [full, String.toList_ofList, parts_eq_segments]
  have hpieces : pieces (· == ';') (full options declared).toList =
      if segments options declared.toList = [] then [[]]
      else segments options declared.toList := by
    rw [hfull]
    split
    · rename_i hnone
      rw [hnone]
      rfl
    · rename_i hne
      exact pieces_join (fun segment hsegment => semicolon_not_mem_segments hsegment) hne
  refine ⟨hpieces, ?_, derives_display options (baseName declared.toList)⟩
  -- the short form is the first piece of any text
  obtain ⟨rest, hfirst⟩ := exists_pieces_eq_cons (· == ';') (full options declared).toList
  have hshort : (full options declared).toList.takeWhile (· != ';') =
      (segments options declared.toList).headD [] := by
    rw [hpieces] at hfirst
    split at hfirst
    · rename_i hnone
      rw [hnone]
      exact (List.cons.inj hfirst).1.symm
    · rw [hfirst]
      rfl
  rw [short, hshort]

end Gridwright.ExitName
