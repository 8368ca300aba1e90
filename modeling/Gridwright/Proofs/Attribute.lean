import Gridwright.Label
import Mathlib.Data.Bool.AllAny
import Mathlib.Data.List.Nodup

/-!
# Texts that attributes do not tell apart

Spelling a text as the name of an attribute loses something: a space comes out like an
underscore, and a refused character like a dollar sign with a code behind it, and neither
the underscore nor the dollar sign is spelled out in turn.  `Attribute.Alike` says which
texts are confused that way.  It is exact: two texts have the same spelling if and only if
they are alike (`escapeChars_eq_iff`).  So texts that hold neither of the two characters are
never confused, and nothing is spelled out twice (`escape_portable_and_faithful`).
-/

namespace Gridwright

namespace Attribute

/-- The code of a character in hexadecimal digits. -/
def code (c : Char) : List Char := Nat.toDigits 16 c.toNat

/-- Texts that agree, apart from spaces that are underscores in the other text and refused
characters that are dollar signs with their codes in the other text. -/
inductive Alike : List Char → List Char → Prop
  | nil : Alike [] []
  | cons (c : Char) {s t : List Char} : Alike s t → Alike (c :: s) (c :: t)
  | space {s t : List Char} : Alike s t → Alike (' ' :: s) ('_' :: t)
  | underscore {s t : List Char} : Alike s t → Alike ('_' :: s) (' ' :: t)
  | refused {c : Char} {s t : List Char} :
      c ∈ refusedChars → Alike s t → Alike (c :: s) ('$' :: (code c ++ t))
  | dollar {c : Char} {s t : List Char} :
      c ∈ refusedChars → Alike s t → Alike ('$' :: (code c ++ s)) (c :: t)

/-! ### Single characters -/

theorem escapeChar_of_refused {c : Char} (h : c ∈ refusedChars) : escapeChar c = '$' :: code c := by
  have hspace : c ≠ ' ' := by
    rintro rfl
    revert h
    decide
  rw [escapeChar, if_neg hspace, if_pos h, code]

theorem escapeChar_cases (c : Char) :
    (c = ' ' ∧ escapeChar c = ['_']) ∨ (c ∈ refusedChars ∧ escapeChar c = '$' :: code c) ∨
      escapeChar c = [c] := by
  by_cases hspace : c = ' '
  · exact Or.inl ⟨hspace, by rw [escapeChar, if_pos hspace]⟩
  · by_cases hrefused : c ∈ refusedChars
    · exact Or.inr (Or.inl ⟨hrefused, escapeChar_of_refused hrefused⟩)
    · exact Or.inr (Or.inr (by rw [escapeChar, if_neg hspace, if_neg hrefused]))

-- The quantifiers over the refused characters are decided along the list: there is also an
-- instance that runs through all characters, and it never ends.
theorem length_code : ∀ c ∈ refusedChars, (code c).length = 2 :=
  List.all_iff_forall_prop.mp (by decide +kernel)

theorem escapeChars_code : ∀ c ∈ refusedChars, escapeChars (code c) = code c :=
  List.all_iff_forall_prop.mp (by decide +kernel)

/-- A code holds neither of the two characters that stand for others. -/
theorem not_mem_code : ∀ c ∈ refusedChars, '_' ∉ code c ∧ '$' ∉ code c :=
  List.all_iff_forall_prop.mp (by decide +kernel)

theorem not_refused_of_mem_codes :
    ∀ c ∈ refusedChars.flatMap code, c ≠ ' ' ∧ c ∉ refusedChars :=
  List.all_iff_forall_prop.mp (by decide +kernel)

theorem nodup_codes : (refusedChars.map code).Nodup := by decide +kernel

/-! ### Texts -/

theorem escapeChars_append (s t : List Char) :
    escapeChars (s ++ t) = escapeChars s ++ escapeChars t := List.flatMap_append

theorem escapeChars_ne_nil (c : Char) (s : List Char) : escapeChars (c :: s) ≠ [] := by
  rw [escapeChars_cons]
  rcases escapeChar_cases c with ⟨-, hc⟩ | ⟨-, hc⟩ | hc
  · simp [hc]
  · simp [hc]
  · simp [hc]

/-- What some server refuses is never spelled. -/
theorem not_refused_of_mem_escapeChars {s : List Char} {c : Char} (h : c ∈ escapeChars s) :
    c ≠ ' ' ∧ c ∉ refusedChars := by
  obtain ⟨d, -, hmem⟩ := List.mem_flatMap.mp h
  unfold escapeChar at hmem
  split at hmem
  · rw [List.mem_singleton.mp hmem]
    decide
  · split at hmem
    · rename_i hrefused
      rcases List.mem_cons.mp hmem with rfl | hcode
      · decide
      · exact not_refused_of_mem_codes c (List.mem_flatMap.mpr ⟨d, hrefused, hcode⟩)
    · rename_i hspace hrefused
      rw [List.mem_singleton.mp hmem]
      exact ⟨hspace, hrefused⟩

/-- What is spelled with neither of the two characters that stand for others stands for
itself. -/
theorem exists_of_append_eq_escapeChars {word rest s : List Char}
    (hword : '_' ∉ word ∧ '$' ∉ word) (h : word ++ rest = escapeChars s) :
    ∃ behind, s = word ++ behind ∧ rest = escapeChars behind := by
  induction word generalizing s with
  | nil => exact ⟨s, rfl, h⟩
  | cons c word ih =>
      simp only [List.mem_cons, not_or] at hword
      obtain ⟨⟨hunderscore, hunderscores⟩, hdollar, hdollars⟩ := hword
      cases s with
      | nil => simp at h
      | cons d s =>
          rw [escapeChars_cons] at h
          rcases escapeChar_cases d with ⟨-, hd⟩ | ⟨-, hd⟩ | hd
          · rw [hd] at h
            exact absurd (List.cons.inj h).1.symm hunderscore
          · rw [hd] at h
            exact absurd (List.cons.inj h).1.symm hdollar
          · rw [hd] at h
            obtain ⟨rfl, htail⟩ := List.cons.inj h
            obtain ⟨behind, rfl, hrest⟩ := ih ⟨hunderscores, hdollars⟩ htail
            exact ⟨behind, rfl, hrest⟩

theorem Alike.escapeChars_eq {s t : List Char} (h : Alike s t) :
    escapeChars s = escapeChars t := by
  induction h with
  | nil => rfl
  | cons c _ ih => rw [escapeChars_cons, escapeChars_cons, ih]
  | space _ ih =>
      rw [escapeChars_cons, escapeChars_cons, ih]
      rfl
  | underscore _ ih =>
      rw [escapeChars_cons, escapeChars_cons, ih]
      rfl
  | refused hc _ ih =>
      rw [escapeChars_cons, escapeChars_cons, escapeChar_of_refused hc, escapeChars_append,
        escapeChars_code _ hc, ih]
      rfl
  | dollar hc _ ih =>
      rw [escapeChars_cons, escapeChars_cons, escapeChar_of_refused hc, escapeChars_append,
        escapeChars_code _ hc, ih]
      rfl

/-- The recursion goes past a whole code where a dollar sign of the one text meets a refused
character of the other, so it is on the length. -/
theorem alike_of_escapeChars_eq (s t : List Char) (h : escapeChars s = escapeChars t) :
    Alike s t := by
  match s, t with
  | [], [] => exact .nil
  | [], d :: t => exact absurd h.symm (escapeChars_ne_nil d t)
  | c :: s, [] => exact absurd h (escapeChars_ne_nil c s)
  | c :: s, d :: t =>
      rw [escapeChars_cons, escapeChars_cons] at h
      -- Each text starts with a space, a refused character or one that stands for itself; a
      -- space never meets a refused character.
      rcases escapeChar_cases c with ⟨rfl, hc⟩ | ⟨hrefused, hc⟩ | hc
      · rw [hc] at h
        rcases escapeChar_cases d with ⟨rfl, hd⟩ | ⟨-, hd⟩ | hd
        · rw [hd] at h
          exact .cons ' ' (alike_of_escapeChars_eq s t (List.cons.inj h).2)
        · rw [hd] at h
          exact absurd (List.cons.inj h).1 (by decide)
        · rw [hd] at h
          obtain ⟨rfl, htail⟩ := List.cons.inj h
          exact .space (alike_of_escapeChars_eq s t htail)
      · rw [hc] at h
        rcases escapeChar_cases d with ⟨-, hd⟩ | ⟨hother, hd⟩ | hd
        · rw [hd] at h
          exact absurd (List.cons.inj h).1 (by decide)
        · rw [hd] at h
          have hlength : (code c).length = (code d).length := by
            rw [length_code c hrefused, length_code d hother]
          obtain ⟨hcode, htail⟩ := List.append_inj (List.cons.inj h).2 hlength
          obtain rfl := List.inj_on_of_nodup_map nodup_codes hrefused hother hcode
          exact .cons c (alike_of_escapeChars_eq s t htail)
        · rw [hd] at h
          obtain ⟨rfl, hbehind⟩ := List.cons.inj h
          obtain ⟨behind, rfl, htail⟩ :=
            exists_of_append_eq_escapeChars (not_mem_code c hrefused) hbehind
          exact .refused hrefused (alike_of_escapeChars_eq s behind htail)
      · rw [hc] at h
        rcases escapeChar_cases d with ⟨rfl, hd⟩ | ⟨hother, hd⟩ | hd
        · rw [hd] at h
          obtain ⟨rfl, htail⟩ := List.cons.inj h
          exact .underscore (alike_of_escapeChars_eq s t htail)
        · rw [hd] at h
          obtain ⟨rfl, hbehind⟩ := List.cons.inj h
          obtain ⟨behind, rfl, htail⟩ :=
            exists_of_append_eq_escapeChars (not_mem_code d hother) hbehind.symm
          exact .dollar hother (alike_of_escapeChars_eq behind t htail.symm)
        · rw [hd] at h
          obtain ⟨rfl, htail⟩ := List.cons.inj h
          exact .cons c (alike_of_escapeChars_eq s t htail)
termination_by s.length

theorem escapeChars_eq_iff {s t : List Char} : escapeChars s = escapeChars t ↔ Alike s t :=
  ⟨alike_of_escapeChars_eq s t, Alike.escapeChars_eq⟩

instance (s t : List Char) : Decidable (Alike s t) := decidable_of_iff _ escapeChars_eq_iff

/-! ### Texts that come out as they are, and texts that are told apart -/

theorem escapeChars_eq_self {s : List Char} (h : ∀ c ∈ s, c ≠ ' ' ∧ c ∉ refusedChars) :
    escapeChars s = s := by
  induction s with
  | nil => rfl
  | cons c s ih =>
      obtain ⟨⟨hspace, hrefused⟩, hrest⟩ := List.forall_mem_cons.mp h
      rw [escapeChars_cons, ih hrest, escapeChar, if_neg hspace, if_neg hrefused,
        List.singleton_append]

/-- A spelling is spelled as it is. -/
theorem escapeChars_escapeChars (s : List Char) : escapeChars (escapeChars s) = escapeChars s :=
  escapeChars_eq_self fun _ hc => not_refused_of_mem_escapeChars hc

/-- Alike texts differ only where one of them has an underscore or a dollar sign. -/
theorem Alike.eq_of_not_mem {s t : List Char} (h : Alike s t) (hs : '_' ∉ s ∧ '$' ∉ s)
    (ht : '_' ∉ t ∧ '$' ∉ t) : s = t := by
  induction h with
  | nil => rfl
  | cons c _ ih =>
      simp only [List.mem_cons, not_or] at hs ht
      rw [ih ⟨hs.1.2, hs.2.2⟩ ⟨ht.1.2, ht.2.2⟩]
  | space _ _ => exact absurd List.mem_cons_self ht.1
  | underscore _ _ => exact absurd List.mem_cons_self hs.1
  | refused _ _ _ => exact absurd List.mem_cons_self ht.2
  | dollar _ _ _ => exact absurd List.mem_cons_self hs.2

/-- A spelling holds neither a space nor anything that some server refuses, and it is its own
spelling.  Among the texts with neither an underscore nor a dollar sign no two are spelled
alike. -/
theorem escape_portable_and_faithful :
    (∀ text : String,
      ' ' ∉ (escape text).toList ∧ (∀ c ∈ refusedChars, c ∉ (escape text).toList) ∧
      escape (escape text) = escape text) ∧
    ∀ text other : String, '_' ∉ text.toList → '$' ∉ text.toList →
      '_' ∉ other.toList → '$' ∉ other.toList → escape text = escape other → text = other := by
  constructor
  · intro text
    simp only [escape, String.toList_ofList, escapeChars_escapeChars, and_true]
    constructor
    · exact fun hspace => (not_refused_of_mem_escapeChars hspace).1 rfl
    · exact fun c hrefused hc => (not_refused_of_mem_escapeChars hc).2 hrefused
  · intro text other hunderscore hdollar hunderscore' hdollar' hsame
    have halike : Alike text.toList other.toList :=
      escapeChars_eq_iff.mp (String.ofList_inj.mp hsame)
    exact String.toList_inj.mp
      (halike.eq_of_not_mem ⟨hunderscore, hdollar⟩ ⟨hunderscore', hdollar'⟩)

/-- Digits behind a refused character are not taken for a part of its code. -/
theorem escape_portable_and_faithful_sample :
    escape "Hall\"2 [b]" = "Hall$222_$5bb$5d" ∧ '"' ∈ refusedChars ∧
      '"' ∉ (escape "Hall\"2 [b]").toList ∧
      escape (escape "Hall\"2 [b]") = escape "Hall\"2 [b]" ∧
      ('_' ∉ "a\"2".toList ∧ '$' ∉ "a\"2".toList ∧ '_' ∉ "a\"22".toList ∧ '$' ∉ "a\"22".toList) ∧
      escape "a\"2" ≠ escape "a\"22" := by
  obtain ⟨hspelling, hfaithful⟩ := escape_portable_and_faithful
  obtain ⟨-, hportable, hagain⟩ := hspelling "Hall\"2 [b]"
  have hquote : '"' ∈ refusedChars := by decide
  obtain ⟨h₁, h₂, h₃, h₄⟩ : '_' ∉ "a\"2".toList ∧ '$' ∉ "a\"2".toList ∧
      '_' ∉ "a\"22".toList ∧ '$' ∉ "a\"22".toList := by decide
  refine ⟨by decide, hquote, hportable '"' hquote, hagain, ⟨h₁, h₂, h₃, h₄⟩, ?_⟩
  intro hsame
  exact absurd (hfaithful "a\"2" "a\"22" h₁ h₂ h₃ h₄ hsame) (by decide)

end Attribute

/-- Labels whose texts, the outer quotes apart, are alike. -/
def Label.Alike (label other : Label) : Prop :=
  Attribute.Alike (unquote label.text.toList) (unquote other.text.toList)

instance (label other : Label) : Decidable (label.Alike other) :=
  inferInstanceAs (Decidable (Attribute.Alike _ _))

theorem Label.key_eq_key_iff {label other : Label} : label.key = other.key ↔ label.Alike other := by
  rw [key, key, String.ofList_inj, Attribute.escapeChars_eq_iff]
  rfl

end Gridwright
