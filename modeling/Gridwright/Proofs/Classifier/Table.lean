import Gridwright.Proofs.Line.Lead
import Gridwright.Proofs.Text.Trim

/-!
# The order of the table

The forms are tried in the order of the table, and the first one that fits a line and means
something at the present place decides.  Only the last row needs its place, because it fits nearly
every line.  The other rows do not compete: a line without blank characters at its ends has at most
one of their forms.

Mostly the first word of the line tells the forms apart (`Form.lead_prefix_of_read?`).  The three
forms of a parent or zone line share theirs, and differ in the first character of the value; the
two forms of a flags line differ in whether there is a value at all.  That last distinction is
lost on a line that ends in blank characters, which can be a value and nothing at once.
-/

namespace Gridwright

open Gridwright.Text

namespace Line

/-! ### First words -/

theorem map_foldCase_prefix_of_dropWord? {same : Char → Char → Bool}
    (hsame : ∀ letter c, same letter c = true → foldCase letter = foldCase c)
    {word s rest : List Char} (h : dropWord? same word s = some rest) :
    word.map foldCase <+: s.map foldCase := by
  induction word generalizing s with
  | nil => exact List.nil_prefix
  | cons letter word ih =>
      cases s with
      | nil => cases h
      | cons c s =>
          rw [dropWord?] at h
          split at h
          · rename_i hc
            exact List.cons_prefix_cons.mpr ⟨hsame letter c hc, ih h⟩
          · cases h

theorem prefix_of_keyword? {word : String} {s rest : List Char} (h : keyword? word s = some rest) :
    word.toList.map foldCase <+: s.map foldCase :=
  map_foldCase_prefix_of_dropWord? (fun _ _ hc => congrArg foldCase (beq_iff_eq.mp hc)) h

theorem prefix_of_keywordAnyCase? {word : String} {s rest : List Char}
    (h : keywordAnyCase? word s = some rest) :
    word.toList.map foldCase <+: s.map foldCase :=
  map_foldCase_prefix_of_dropWord? (fun _ _ hc => beq_iff_eq.mp hc) h

theorem eq_cons_of_link? {s : List Char} {parts : List Char × List Char × List Char}
    (h : link? s = some parts) : ∃ inner, s = '"' :: inner := by
  cases s with
  | nil => cases h
  | cons c inner =>
      rw [link?] at h
      split at h
      · rename_i hquote
        exact ⟨inner, by rw [hquote]⟩
      · cases h

/-- A text has the first word of its form, case aside. -/
theorem Form.lead_prefix_of_read? {form : Form} {s : List Char} {reading : Reading} {word : String}
    (h : form.read? s = some reading) (hword : form.lead? = some word) :
    word.toList.map foldCase <+: s.map foldCase := by
  cases form with
  | blank | anything => cases hword
  | ignored | literal =>
      cases hword
      obtain ⟨rest, hrest, -⟩ := Option.map_eq_some_iff.mp h
      exact prefix_of_keyword? hrest
  | comment | attrBase | reference | flags | inRoom | onExit | endIn | endOn =>
      cases hword
      obtain ⟨rest, hrest, -⟩ := Option.bind_eq_some_iff.mp h
      exact prefix_of_keyword? hrest
  | exitAlias | reverse =>
      cases hword
      obtain ⟨parts, hpair, -⟩ := Option.map_eq_some_iff.mp h
      obtain ⟨rest, hrest, -⟩ := Option.bind_eq_some_iff.mp hpair
      exact prefix_of_keywordAnyCase? hrest
  | describe =>
      cases hword
      obtain ⟨parts, hparts, -⟩ := Option.map_eq_some_iff.mp h
      obtain ⟨rest, hrest, -⟩ := Option.bind_eq_some_iff.mp hparts
      exact prefix_of_keyword? hrest
  | link =>
      cases hword
      obtain ⟨parts, hparts, -⟩ := Option.map_eq_some_iff.mp h
      obtain ⟨inner, rfl⟩ := eq_cons_of_link? hparts
      exact List.cons_prefix_cons.mpr ⟨rfl, List.nil_prefix⟩

theorem Form.mem_table (form : Form) : form ∈ table := by
  cases form with
  | reference kind slot value => cases kind <;> cases slot <;> cases value <;> decide
  | flags kind given => cases kind <;> cases given <;> decide
  | _ => decide

theorem Form.exists_lead {form : Form} (h : form ≠ .blank ∧ form ≠ .anything) :
    ∃ word, form.lead? = some word := by
  cases form with
  | blank => exact absurd rfl h.1
  | anything => exact absurd rfl h.2
  | _ => exact ⟨_, rfl⟩

/-- Forms that are the same but for the value behind the colon. -/
def Form.sameWord : Form → Form → Bool
  | .reference kind slot _, .reference kind' slot' _ => kind = kind' ∧ slot = slot'
  | .flags kind _, .flags kind' _ => kind = kind'
  | form, other => form = other

/-- No first word begins another one, so a text begins with one of them at most. -/
theorem Form.sameWord_of_read? {form other : Form} {s : List Char} {reading reading' : Reading}
    (hform : form ≠ .blank ∧ form ≠ .anything) (hother : other ≠ .blank ∧ other ≠ .anything)
    (h : form.read? s = some reading) (h' : other.read? s = some reading') :
    form.sameWord other = true := by
  have hrows : ∀ form ∈ table, ∀ other ∈ table, ∀ word ∈ form.lead?, ∀ word' ∈ other.lead?,
      word.toList.map foldCase <+: word'.toList.map foldCase ∨
        word'.toList.map foldCase <+: word.toList.map foldCase → form.sameWord other = true := by
    decide +kernel
  obtain ⟨word, hword⟩ := form.exists_lead hform
  obtain ⟨word', hword'⟩ := other.exists_lead hother
  exact hrows form form.mem_table other other.mem_table word hword word' hword'
    (List.prefix_or_prefix_of_prefix (lead_prefix_of_read? h hword)
      (lead_prefix_of_read? h' hword'))

/-! ### Values -/

/-- The first character of a value that is given in a certain way. -/
def ReferenceForm.sign? : ReferenceForm → Option Char
  | .reset => none
  | .dbref => some '#'
  | .label => some '"'

theorem head?_trim_of_referenceValue? {form : ReferenceForm} {s : List Char}
    {value : Option Reference} (h : referenceValue? form s = some value) :
    (trim s).head? = form.sign? := by
  cases form with
  | reset =>
      simp only [referenceValue?] at h
      split at h
      · rename_i hblank
        rw [trim_eq_nil hblank]
        rfl
      · cases h
  | dbref =>
      obtain ⟨text, htext, -⟩ := Option.map_eq_some_iff.mp h
      unfold dbref? at htext
      split at htext
      · rename_i digits htrim
        rw [htrim]
        rfl
      · cases htext
  | label =>
      obtain ⟨text, htext, -⟩ := Option.map_eq_some_iff.mp h
      cases hs : trimStart s with
      | nil =>
          rw [hs] at htext
          cases htext
      | cons c rest =>
          rw [hs, closingLabel?] at htext
          split at htext
          · rename_i hclosed
            obtain rfl := hclosed.1
            rw [trim_of_trimStart [] not_isBlank_quote hs]
            rfl
          · cases htext

theorem eq_of_referenceValue? {form other : ReferenceForm} {s : List Char}
    {value value' : Option Reference} (h : referenceValue? form s = some value)
    (h' : referenceValue? other s = some value') : form = other := by
  have hsign : form.sign? = other.sign? := by
    rw [← head?_trim_of_referenceValue? h, head?_trim_of_referenceValue? h']
  cases form <;> cases other <;> first | rfl | cases hsign

theorem eq_nil_of_isBlankText {s : List Char} (hblank : isBlankText s = true)
    (hend : ∀ c ∈ s.getLast?, isBlank c = false) : s = [] := by
  rcases List.eq_nil_or_concat' s with rfl | ⟨front, last, rfl⟩
  · rfl
  · have hsolid := hend last (by simp)
    rw [List.all_eq_true.mp hblank last (by simp)] at hsolid
    cases hsolid

/-- Flags that are blank are no flags, unless they are the end of the line. -/
theorem eq_of_flagsValue? {given given' : Bool} {s : List Char} {value value' : Option String}
    (hend : ∀ c ∈ s.getLast?, isBlank c = false) (h : flagsValue? given s = some value)
    (h' : flagsValue? given' s = some value') : given = given' := by
  have hnone : ∀ {value}, flagsValue? false s = some value → flagsValue? true s = none := by
    intro value hreset
    simp only [flagsValue?, Bool.false_eq_true, if_false] at hreset
    split at hreset
    · rename_i hblank
      rw [eq_nil_of_isBlankText hblank hend]
      rfl
    · cases hreset
  cases given with
  | true =>
      cases given' with
      | true => rfl
      | false => cases (hnone h').symm.trans h
  | false =>
      cases given' with
      | true => cases (hnone h).symm.trans h'
      | false => rfl

/-! ### Forms of a line -/

/-- Only the empty line is blank, and it has no other form. -/
theorem Form.eq_blank_iff {form : Form} {s : List Char} {reading : Reading} (htrim : trim s = s)
    (hform : form ≠ .anything) (h : form.read? s = some reading) : form = .blank ↔ s = [] := by
  constructor
  · rintro rfl
    simp only [read?] at h
    split at h
    · rename_i hblank
      exact eq_nil_of_isBlankText hblank (trim_eq_self_iff.mp htrim).2
    · cases h
  · rintro rfl
    by_contra hblank
    obtain ⟨word, hword⟩ := exists_lead ⟨hblank, hform⟩
    have hsome : ∀ form ∈ table, form.lead? ≠ some "" := by decide +kernel
    have hempty := List.prefix_nil.mp (lead_prefix_of_read? h hword)
    rw [List.map_eq_nil_iff, String.toList_eq_nil_iff] at hempty
    exact hsome form form.mem_table (hempty ▸ hword)

/-- Two forms with the same keyword read the same value behind it. -/
theorem exists_rest_of_read? {α : Type} {word : String} {s : List Char}
    {value? value'? : List Char → Option α} {read read' : α → Reading}
    {reading reading' : Reading}
    (h : ((keyword? word s).bind fun rest => (value? rest).map read) = some reading)
    (h' : ((keyword? word s).bind fun rest => (value'? rest).map read') = some reading') :
    ∃ rest value value', s = word.toList ++ rest ∧ value? rest = some value ∧
      value'? rest = some value' := by
  obtain ⟨rest, hrest, hread⟩ := Option.bind_eq_some_iff.mp h
  obtain ⟨rest', hrest', hread'⟩ := Option.bind_eq_some_iff.mp h'
  cases hrest.symm.trans hrest'
  obtain ⟨value, hvalue, -⟩ := Option.map_eq_some_iff.mp hread
  obtain ⟨value', hvalue', -⟩ := Option.map_eq_some_iff.mp hread'
  exact ⟨rest, value, value', (dropWord?_eq_some_iff _ _ _).mp hrest, hvalue, hvalue'⟩

/-- A line without blank characters at its ends has at most one form, the last row aside. -/
theorem Form.eq_of_read? {form other : Form} {s : List Char} {reading reading' : Reading}
    (htrim : trim s = s) (hform : form ≠ .anything) (hother : other ≠ .anything)
    (h : form.read? s = some reading) (h' : other.read? s = some reading') : form = other := by
  by_cases hempty : s = []
  · rw [(eq_blank_iff htrim hform h).mpr hempty, (eq_blank_iff htrim hother h').mpr hempty]
  · have hblank : form ≠ .blank := fun heq => hempty ((eq_blank_iff htrim hform h).mp heq)
    have hblank' : other ≠ .blank := fun heq => hempty ((eq_blank_iff htrim hother h').mp heq)
    have hword := sameWord_of_read? ⟨hblank, hform⟩ ⟨hblank', hother⟩ h h'
    unfold sameWord at hword
    split at hword
    · rename_i kind slot value kind' slot' value'
      obtain ⟨rfl, rfl⟩ := of_decide_eq_true hword
      obtain ⟨rest, _, _, -, hvalue, hvalue'⟩ := exists_rest_of_read? h h'
      rw [eq_of_referenceValue? hvalue hvalue']
    · rename_i kind given kind' given'
      obtain rfl := of_decide_eq_true hword
      obtain ⟨rest, _, _, hs, hvalue, hvalue'⟩ := exists_rest_of_read? h h'
      have hend : ∀ c ∈ rest.getLast?, isBlank c = false := by
        intro c hc
        apply (trim_eq_self_iff.mp htrim).2 c
        rw [hs, List.getLast?_append, Option.mem_def.mp hc]
        rfl
      rw [eq_of_flagsValue? hend hvalue hvalue']
    · exact of_decide_eq_true hword

end Line

/-! ### Other tables -/

/-- Where at most one of several items has a value, the order of the items does not matter. -/
theorem findSome?_eq_of_perm {α β : Type} {items other : List α} {value? : α → Option β}
    (hperm : items.Perm other)
    (hunique : ∀ a ∈ items, ∀ b ∈ items, (value? a).isSome → (value? b).isSome → a = b) :
    items.findSome? value? = other.findSome? value? := by
  cases hfound : items.findSome? value? with
  | none =>
      refine (List.findSome?_eq_none_iff.mpr ?_).symm
      intro item hitem
      exact List.findSome?_eq_none_iff.mp hfound item (hperm.mem_iff.mpr hitem)
  | some found =>
      obtain ⟨a, ha, hvalue⟩ := List.exists_of_findSome?_eq_some hfound
      have hsome : (other.findSome? value?).isSome = true :=
        List.findSome?_isSome_iff.mpr ⟨a, hperm.mem_iff.mp ha, by rw [hvalue]; rfl⟩
      obtain ⟨found', hfound'⟩ := Option.isSome_iff_exists.mp hsome
      obtain ⟨b, hb, hvalue'⟩ := List.exists_of_findSome?_eq_some hfound'
      obtain rfl := hunique a ha b (hperm.mem_iff.mpr hb) (by simp [hvalue]) (by simp [hvalue'])
      rw [hfound', ← hvalue, hvalue']

namespace Classifier

open Line

/-- Classifies one line by the forms of the given table. -/
def classifyBy (table : List Form) (classifier : Classifier) (number : Nat) (text : String) :
    Classifier × List Action :=
  (classifier.response table (.of number text)).getD (classifier, [])

theorem length_filter_read?_le_one {line : List Char} (htrim : trim line = line) :
    (Form.table.filter fun form => form ≠ .anything ∧ (form.read? line).isSome).length ≤ 1 := by
  have htable : Form.table.Nodup := by decide +kernel
  have hnodup := htable.filter fun form => form ≠ .anything ∧ (form.read? line).isSome
  have hsame : ∀ first ∈ Form.table.filter fun form => form ≠ .anything ∧ (form.read? line).isSome,
      ∀ second ∈ Form.table.filter fun form => form ≠ .anything ∧ (form.read? line).isSome,
        first = second := by
    intro first hfirst second hsecond
    obtain ⟨hrow, hread⟩ := of_decide_eq_true (List.mem_filter.mp hfirst).2
    obtain ⟨hrow', hread'⟩ := of_decide_eq_true (List.mem_filter.mp hsecond).2
    obtain ⟨_, hreading⟩ := Option.isSome_iff_exists.mp hread
    obtain ⟨_, hreading'⟩ := Option.isSome_iff_exists.mp hread'
    exact Form.eq_of_read? htrim hrow hrow' hreading hreading'
  generalize Form.table.filter _ = rows at hnodup hsame
  rcases rows with _ | ⟨first, _ | ⟨second, rest⟩⟩
  · exact Nat.zero_le 1
  · exact Nat.le_refl 1
  · simp [hsame first (by simp) second (by simp)] at hnodup

theorem response_eq_of_perm {table : List Form} (hperm : table.Perm Form.table)
    (hlast : table.getLast? = some .anything) (classifier : Classifier) {line : SourceLine}
    (htrim : trim line.trimmed = line.trimmed) :
    classifier.response table line = classifier.response Form.table line := by
  obtain ⟨rows, rfl⟩ := List.getLast?_eq_some_iff.mp hlast
  have htable : Form.table = Form.table.dropLast ++ [.anything] := rfl
  have hrows : rows.Perm Form.table.dropLast := by
    rw [htable] at hperm
    exact (List.perm_append_right_iff [Form.anything]).mp hperm
  have hrest : ∀ form ∈ rows, form ≠ .anything := by
    have hnone : ∀ form ∈ Form.table.dropLast, form ≠ .anything := by decide +kernel
    exact fun form hform => hnone form (hrows.mem_iff.mp hform)
  rw [htable, response, response, List.findSome?_append, List.findSome?_append,
    findSome?_eq_of_perm hrows]
  intro form hform other hother hresponse hresponse'
  obtain ⟨_, hresult⟩ := Option.isSome_iff_exists.mp hresponse
  obtain ⟨_, hresult'⟩ := Option.isSome_iff_exists.mp hresponse'
  obtain ⟨_, hreading, -⟩ := Option.bind_eq_some_iff.mp hresult
  obtain ⟨_, hreading', -⟩ := Option.bind_eq_some_iff.mp hresult'
  exact Form.eq_of_read? htrim (hrest form hform) (hrest other hother) hreading hreading'

/-- A line without blank characters at its ends has at most one form besides that of the last row,
and so every line comes to the same with every table in which the rows, the last one aside, stand
in another order. -/
theorem table_order_irrelevant :
    (∀ line : List Char, trim line = line →
      (Form.table.filter fun form => form ≠ .anything ∧ (form.read? line).isSome).length ≤ 1) ∧
    ∀ table : List Form, table.Perm Form.table → table.getLast? = some .anything →
      ∀ (classifier : Classifier) (number : Nat) (text : String),
        classifier.classifyBy table number text = classifier.classify number text := by
  refine ⟨fun line htrim => length_filter_read?_le_one htrim, ?_⟩
  intro table hperm hlast classifier number text
  have htrim : trim (SourceLine.of number text).trimmed = (SourceLine.of number text).trimmed :=
    trim_trim text.toList
  rw [classifyBy, response_eq_of_perm hperm hlast classifier htrim, classify]

/-- Of the forms of a flags line the one with a value comes first here, and still a line without a
value is read as such. -/
theorem table_order_irrelevant_sample :
    let line := "EXIT FLAGS:".toList
    let table := Form.table.dropLast.reverse ++ [.anything]
    trim line = line ∧
      (Form.table.filter fun form => form ≠ .anything ∧ (form.read? line).isSome).length ≤ 1 ∧
      table.Perm Form.table ∧ table.getLast? = some .anything ∧
      classifyBy table {} 3 "EXIT FLAGS: \t" = ({}, [.setFlags .exit none]) := by
  intro line table
  have htrim : trim line = line := by decide +kernel
  have hperm : table.Perm Form.table := by decide +kernel
  have hlast : table.getLast? = some .anything := by decide +kernel
  have hline : classify {} 3 "EXIT FLAGS: \t" = ({}, [.setFlags .exit none]) := by decide +kernel
  obtain ⟨hforms, htables⟩ := table_order_irrelevant
  exact ⟨htrim, hforms line htrim, hperm, hlast, (htables table hperm hlast {} 3 _).trans hline⟩

end Classifier

end Gridwright
