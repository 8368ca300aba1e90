import Gridwright.Attribute
import Gridwright.Proofs.Text.Pieces
import Mathlib.Data.List.Induction
import Mathlib.Data.List.Sort
import Mathlib.Data.String.Basic

/-!
# Branches of attribute trees

The branches that paths need are collected in two rounds, one that sorts the paths and one that
drops what is there already; neither of them gains or loses a branch.  What is left is a
statement about one path: it needs a branch for every run of its outer levels, unless it has
only one level (`branch_mem_branches_iff`).

Sorting makes the branches independent of the order in which the paths are given
(`branches_congr`), and a branch that is dropped has been made before, so that outer branches
still come first (`outermostFirst_branches`).
-/

namespace Gridwright.Attribute

/-! ### Levels -/

theorem of_mem_levels {path : String} {level : List Char} (h : level ∈ levels path) :
    level ≠ [] ∧ levelMark ∉ level := by
  obtain ⟨hpiece, hfull⟩ := List.mem_filter.mp h
  constructor
  · simpa using hfull
  · intro hmark
    have hsign := Text.not_separator_of_mem_pieces hpiece hmark
    simp at hsign

/-- The levels on both sides of a mark are the levels of the path. -/
theorem levels_of_split {path : String} {front behind : List Char}
    (h : path.toList = front ++ levelMark :: behind) :
    levels path = levels (String.ofList front) ++ levels (String.ofList behind) := by
  simp only [levels, h, String.toList_ofList]
  apply Text.nonemptyPieces_append_separator
  exact beq_self_eq_true levelMark

/-- The branch at the end of some levels. -/
def branch (upper : List (List Char)) : String := String.ofList (Text.join [levelMark] upper)

/-- Different levels have different branches. -/
theorem branch_injective {upper other : List (List Char)} (hupper : upper ≠ [])
    (hfree : ∀ level ∈ upper, levelMark ∉ level) (hother : other ≠ [])
    (hotherFree : ∀ level ∈ other, levelMark ∉ level) (h : branch upper = branch other) :
    upper = other := by
  have hjoin : Text.join [levelMark] upper = Text.join [levelMark] other :=
    String.ofList_inj.mp h
  rw [← Text.pieces_join hfree hupper, hjoin, Text.pieces_join hotherFree hother]

/-! ### Branches of one path -/

theorem mem_nonemptyPrefixes {α : Type} {items upper : List α} :
    upper ∈ nonemptyPrefixes items ↔ upper ≠ [] ∧ upper <+: items := by
  induction items generalizing upper with
  | nil => simp [nonemptyPrefixes]
  | cons item rest ih =>
      rw [nonemptyPrefixes, List.mem_cons, List.mem_map]
      constructor
      · rintro (rfl | ⟨below, hbelow, rfl⟩)
        · exact ⟨List.cons_ne_nil _ _, List.cons_prefix_cons.mpr ⟨rfl, List.nil_prefix⟩⟩
        · exact ⟨List.cons_ne_nil _ _, List.cons_prefix_cons.mpr ⟨rfl, (ih.mp hbelow).2⟩⟩
      · rintro ⟨hne, hstart⟩
        obtain ⟨first, below, rfl⟩ := List.exists_cons_of_ne_nil hne
        obtain ⟨rfl, hbelow⟩ := List.cons_prefix_cons.mp hstart
        by_cases hnil : below = []
        · exact Or.inl (by rw [hnil])
        · exact Or.inr ⟨below, ih.mpr ⟨hnil, hbelow⟩, rfl⟩

theorem mem_branchesOf_iff {path text : String} :
    text ∈ branchesOf path ↔ 1 < (levels path).length ∧
      ∃ upper, upper ≠ [] ∧ upper <+: levels path ∧ text = branch upper := by
  simp only [branchesOf]
  split
  · rename_i hlong
    simp only [List.mem_map, mem_nonemptyPrefixes, hlong, true_and, and_assoc, eq_comm, branch]
  · rename_i hshort
    simp [hshort]

theorem branch_mem_branchesOf_iff {path : String} {upper : List (List Char)}
    (hupper : upper ≠ []) (hfree : ∀ level ∈ upper, levelMark ∉ level) :
    branch upper ∈ branchesOf path ↔
      1 < (levels path).length ∧ upper <+: levels path := by
  rw [mem_branchesOf_iff]
  refine and_congr_right fun _ => ⟨?_, fun hstart => ⟨upper, hupper, hstart, rfl⟩⟩
  rintro ⟨found, hfound, hstart, hbranch⟩
  have hsame : upper = found :=
    branch_injective hupper hfree hfound
      (fun level hlevel => (of_mem_levels (hstart.subset hlevel)).2) hbranch
  rwa [hsame]

/-! ### Branches of many paths -/

theorem mem_insertSorted {text other : String} {texts : List String} :
    other ∈ insertSorted text texts ↔ other = text ∨ other ∈ texts := by
  induction texts with
  | nil => simp [insertSorted]
  | cons first rest ih =>
      unfold insertSorted
      split
      · simp
      · split
        · rename_i hsame
          simp [hsame]
        · rw [List.mem_cons, ih, List.mem_cons]
          exact or_left_comm

theorem mem_sortedDistinct {text : String} {texts : List String} :
    text ∈ sortedDistinct texts ↔ text ∈ texts := by
  induction texts with
  | nil => rfl
  | cons first rest ih =>
      have hstep : sortedDistinct (first :: rest) = insertSorted first (sortedDistinct rest) := rfl
      rw [hstep, mem_insertSorted, ih, List.mem_cons]

theorem mem_appendNew {text other : String} {texts : List String} :
    other ∈ appendNew texts text ↔ other ∈ texts ∨ other = text := by
  unfold appendNew
  split
  · rename_i hknown
    constructor
    · exact Or.inl
    · rintro (hother | rfl)
      · exact hother
      · exact hknown
  · rw [List.mem_append, List.mem_singleton]

theorem mem_foldl_appendNew {text : String} {known texts : List String} :
    text ∈ texts.foldl appendNew known ↔ text ∈ known ∨ text ∈ texts := by
  induction texts generalizing known with
  | nil => simp
  | cons first rest ih => rw [List.foldl_cons, ih, mem_appendNew, List.mem_cons, or_assoc]

theorem mem_branches_iff {text : String} {paths : List String} :
    text ∈ branches paths ↔ ∃ path ∈ paths, text ∈ branchesOf path := by
  simp only [branches, mem_foldl_appendNew, List.not_mem_nil, false_or, List.mem_flatMap,
    mem_sortedDistinct]

/-- A branch is needed if a path of more than one level runs through it. -/
theorem branch_mem_branches_iff {paths : List String} {upper : List (List Char)}
    (hupper : upper ≠ []) (hfree : ∀ level ∈ upper, levelMark ∉ level) :
    branch upper ∈ branches paths ↔
      ∃ path ∈ paths, 1 < (levels path).length ∧ upper <+: levels path := by
  simp only [mem_branches_iff, branch_mem_branchesOf_iff hupper hfree]

/-! ### Sorted paths -/

theorem precedes_iff_lt {s t : List Char} : precedes s t = true ↔ s < t := by
  induction s generalizing t with
  | nil =>
      cases t with
      | nil => simp [precedes]
      | cons d t => simp [precedes]
  | cons c s ih =>
      cases t with
      | nil => simp [precedes]
      | cons d t =>
          rw [precedes, List.cons_lt_cons_iff]
          split
          · rename_i hsame
            simp [hsame, ih]
          · rename_i hother
            simp only [hother, decide_eq_true_eq, false_and, or_false]
            rfl

theorem precedes_toList_iff {text other : String} :
    precedes text.toList other.toList = true ↔ text < other :=
  precedes_iff_lt.trans String.lt_iff_toList_lt.symm

theorem sortedLT_insertSorted {texts : List String} (h : texts.SortedLT) (text : String) :
    (insertSorted text texts).SortedLT := by
  rw [List.sortedLT_iff_pairwise] at h ⊢
  induction texts with
  | nil => exact List.pairwise_singleton _ _
  | cons first rest ih =>
      obtain ⟨hfirst, hrest⟩ := List.pairwise_cons.mp h
      unfold insertSorted
      split
      · rename_i hbefore
        have hlt : text < first := precedes_toList_iff.mp hbefore
        refine List.pairwise_cons.mpr ⟨?_, h⟩
        exact List.forall_mem_cons.mpr ⟨hlt, fun other hother => hlt.trans (hfirst other hother)⟩
      · split
        · exact h
        · rename_i hbefore hother
          have hlt : first < text :=
            (lt_or_gt_of_ne hother).resolve_left fun hlt => hbefore (precedes_toList_iff.mpr hlt)
          refine List.pairwise_cons.mpr ⟨?_, ih hrest⟩
          intro other hmem
          rcases mem_insertSorted.mp hmem with rfl | hknown
          · exact hlt
          · exact hfirst other hknown

theorem sortedLT_sortedDistinct (texts : List String) : (sortedDistinct texts).SortedLT := by
  induction texts with
  | nil => exact List.Pairwise.nil.sortedLT
  | cons text rest ih => exact sortedLT_insertSorted ih text

/-- The branches depend on which paths there are and on nothing else. -/
theorem branches_congr {paths other : List String} (h : ∀ path, path ∈ paths ↔ path ∈ other) :
    branches paths = branches other := by
  have hsorted : sortedDistinct paths = sortedDistinct other := by
    apply (sortedLT_sortedDistinct paths).eq_of_mem_iff (sortedLT_sortedDistinct other)
    intro path
    rw [mem_sortedDistinct, mem_sortedDistinct, h]
  rw [branches, hsorted, branches]

/-! ### Each branch once -/

theorem nodup_foldl_appendNew (texts : List String) : (texts.foldl appendNew []).Nodup := by
  induction texts using List.reverseRecOn with
  | nil => exact List.nodup_nil
  | append_singleton texts text ih =>
      rw [List.foldl_append, List.foldl_cons, List.foldl_nil, appendNew]
      split
      · exact ih
      · rename_i hnew
        rw [← List.concat_eq_append]
        exact ih.concat hnew

theorem nodup_branches (paths : List String) : (branches paths).Nodup :=
  nodup_foldl_appendNew _

/-! ### Outer branches first -/

/-- The levels of a branch are those it was made from. -/
theorem levels_branch {upper : List (List Char)}
    (h : ∀ level ∈ upper, level ≠ [] ∧ levelMark ∉ level) : levels (branch upper) = upper := by
  by_cases hnil : upper = []
  · rw [hnil]
    rfl
  · rw [levels, branch, String.toList_ofList, Text.nonemptyPieces,
      Text.pieces_join (fun level hlevel => (h level hlevel).2) hnil, List.filter_eq_self]
    intro level hlevel
    simpa using (h level hlevel).1

/-- Every branch of more than one level stands behind the branch above it. -/
def OutermostFirst (texts : List String) : Prop :=
  ∀ before text after, texts = before ++ text :: after → 1 < (levels text).length →
    branch (levels text).dropLast ∈ before

namespace OutermostFirst

theorem nil : OutermostFirst [] := by
  intro before text after heq
  simp at heq

theorem of_append {first second : List String} (h : OutermostFirst (first ++ second)) :
    OutermostFirst first := by
  intro before text after heq
  exact h before text (after ++ second) (by simp [heq])

theorem snoc {texts : List String} {text : String} (h : OutermostFirst texts)
    (habove : 1 < (levels text).length → branch (levels text).dropLast ∈ texts) :
    OutermostFirst (texts ++ [text]) := by
  intro before other after heq
  rcases List.eq_nil_or_concat' after with rfl | ⟨rest, last, rfl⟩
  · obtain ⟨rfl, hlast⟩ := List.append_inj' heq rfl
    cases hlast
    exact habove
  · rw [← List.cons_append, ← List.append_assoc] at heq
    obtain ⟨rfl, -⟩ := List.append_inj' heq rfl
    exact h before other rest rfl

theorem append {first second : List String} (hfirst : OutermostFirst first)
    (hsecond : OutermostFirst second) : OutermostFirst (first ++ second) := by
  induction second using List.reverseRecOn with
  | nil => rwa [List.append_nil]
  | append_singleton second text ih =>
      rw [← List.append_assoc]
      refine (ih hsecond.of_append).snoc ?_
      intro hdeep
      exact List.mem_append_right first (hsecond second text [] rfl hdeep)

/-- Of equal branches the first one stays, so what stood in front of a branch still does. -/
theorem foldl_appendNew {texts : List String} (h : OutermostFirst texts) :
    OutermostFirst (texts.foldl appendNew []) := by
  induction texts using List.reverseRecOn with
  | nil => exact nil
  | append_singleton texts text ih =>
      have hinit := ih h.of_append
      rw [List.foldl_append, List.foldl_cons, List.foldl_nil, appendNew]
      split
      · exact hinit
      · refine hinit.snoc ?_
        intro hdeep
        exact mem_foldl_appendNew.mpr (Or.inr (h texts text [] rfl hdeep))

end OutermostFirst

theorem nonemptyPrefixes_concat {α : Type} (items : List α) (last : α) :
    nonemptyPrefixes (items ++ [last]) = nonemptyPrefixes items ++ [items ++ [last]] := by
  induction items with
  | nil => rfl
  | cons item rest ih => simp [nonemptyPrefixes, ih]

theorem outermostFirst_map_branch {upper : List (List Char)}
    (h : ∀ level ∈ upper, level ≠ [] ∧ levelMark ∉ level) :
    OutermostFirst ((nonemptyPrefixes upper).map branch) := by
  induction upper using List.reverseRecOn with
  | nil => exact .nil
  | append_singleton upper last ih =>
      have hupper := ih fun level hlevel => h level (List.mem_append_left _ hlevel)
      rw [nonemptyPrefixes_concat, List.map_append, List.map_singleton]
      refine hupper.snoc ?_
      rw [levels_branch h, List.dropLast_concat, List.length_append, List.length_singleton]
      intro hdeep
      have hne : upper ≠ [] := List.ne_nil_of_length_pos (by omega)
      exact List.mem_map_of_mem (mem_nonemptyPrefixes.mpr ⟨hne, List.prefix_rfl⟩)

theorem outermostFirst_branches (paths : List String) : OutermostFirst (branches paths) := by
  apply OutermostFirst.foldl_appendNew
  induction sortedDistinct paths with
  | nil => exact .nil
  | cons path rest ih =>
      rw [List.flatMap_cons]
      refine OutermostFirst.append ?_ ih
      simp only [branchesOf]
      split
      · exact outermostFirst_map_branch fun level hlevel => of_mem_levels hlevel
      · exact .nil

end Gridwright.Attribute
