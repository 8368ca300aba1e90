import Gridwright.Proofs.Line.Links
import Gridwright.Proofs.Line.Quotations

/-!
# The classifier undoes the surface syntax

Outside of blocks every statement is read as what was written (`classify_statement`).  For each
kind of statement there are three things to see: what is left of the line when it is trimmed,
which rows of the table its beginning leaves in play, and what the first of these rows reads.
-/

namespace Gridwright

open Gridwright.Text Gridwright.Line

/-! ### Values behind a word -/

/-- What stands behind a word when the line is trimmed: a value after a space, or nothing. -/
def spaced (value : List Char) : List Char := if value = [] then [] else ' ' :: value

theorem trim_word_append {word value : List Char} (hne : word ≠ []) (hword : trim word = word)
    (hvalue : trim value = value) : trim (word ++ ' ' :: value) = word ++ spaced value := by
  obtain ⟨hstart, hend⟩ := trim_eq_self_iff.mp hword
  by_cases hempty : value = []
  · rw [hempty, trim, trimEnd_concat_of_blank isBlank_space, spaced, if_pos rfl, List.append_nil]
    exact hword
  · rw [spaced, if_neg hempty]
    refine trim_append_eq_self hne (List.cons_ne_nil _ _) hstart ?_
    rw [List.getLast?_cons_of_ne_nil hempty]
    exact (trim_eq_self_iff.mp hvalue).2

theorem trimStart_spaced {value : List Char} (hvalue : trim value = value) :
    trimStart (spaced value) = value := by
  have hstart := trimStart_eq_self_iff.mpr (trim_eq_self_iff.mp hvalue).1
  rw [spaced]
  split
  · rename_i hempty
    rw [hempty]
    rfl
  · rw [trimStart_cons_of_blank isBlank_space, hstart]

theorem trim_spaced {value : List Char} (hvalue : trim value = value) :
    trim (spaced value) = value := by
  have hend := (trim_eq_self_iff.mp hvalue).2
  have hsame : trimEnd (spaced value) = spaced value := by
    refine trimEnd_eq_self_iff.mpr ?_
    rw [spaced]
    split
    · simp
    · rename_i hempty
      rwa [List.getLast?_cons_of_ne_nil hempty]
  rw [trim, hsame, trimStart_spaced hvalue]

theorem isBlankText_spaced {value : List Char} (hvalue : trim value = value) (hne : value ≠ []) :
    isBlankText (spaced value) = false := by
  obtain ⟨c, rest, rfl⟩ := List.exists_cons_of_ne_nil hne
  have hc := (trim_eq_self_iff.mp hvalue).1 c rfl
  simp [spaced, isBlankText, hc]

theorem trim_append_written (front : List Char) (hne : front ≠ [])
    (hstart : ∀ c ∈ front.head?, isBlank c = false) (label : WrittenLabel) :
    trim (front ++ label.written.toList) = front ++ label.written.toList := by
  rw [label.toList_written]
  refine trim_append_eq_self hne (List.cons_ne_nil _ _) hstart ?_
  exact trimEnd_eq_self_iff.mp label.trimEnd_written

theorem trim_append_pair (front : List Char) (hne : front ≠ [])
    (hstart : ∀ c ∈ front.head?, isBlank c = false) (first second : QuotedText) :
    trim (front ++ ' ' :: (first.written ++ " " ++ second.written).toList) =
      front ++ ' ' :: (first.written ++ " " ++ second.written).toList := by
  refine trim_append_eq_self hne (List.cons_ne_nil _ _) hstart ?_
  have hlast : ' ' :: (first.written ++ " " ++ second.written).toList =
      (" " ++ first.written ++ " \"" ++ second.text).toList ++ ['"'] := by
    simp [QuotedText.written]
  intro c hc
  rw [hlast, List.getLast?_concat] at hc
  cases hc
  exact not_isBlank_quote

/-! ### What the rows read -/

/-- A path expands hop by hop from the room before. -/
theorem pathActions_written (exit : Label) (first : WrittenLabel) (path : List WrittenHop) :
    pathActions exit first.label (path.map (·.hop)) =
      (List.zipWith (Statement.hopActions exit) (first :: path.map (·.room)) path).flatten := by
  induction path generalizing first with
  | nil => rfl
  | cons hop more ih =>
      have hrest := ih hop.room
      simp only [List.map_cons, pathActions, WrittenHop.hop] at hrest ⊢
      rw [hrest]
      simp [Statement.hopActions]

/-! ### References -/

namespace WrittenReference

def form : WrittenReference → ReferenceForm
  | .nothing => .reset
  | .dbref _ => .dbref
  | .label _ => .label

/-- The forms of a reference that are tried before the right one. -/
def earlier : WrittenReference → List ReferenceForm
  | .nothing => []
  | .dbref _ => [.reset]
  | .label _ => [.reset, .dbref]

theorem trim_written (value : WrittenReference) :
    trim value.written.toList = value.written.toList := by
  cases value with
  | nothing => rfl
  | dbref number =>
      have htext : (dbref number).written.toList = '#' :: number.chars := by simp [written]
      rw [htext]
      refine trim_eq_self_iff.mpr ⟨by simp [show isBlank '#' = false by decide], ?_⟩
      intro c hc
      rw [List.getLast?_cons_of_ne_nil number.nonempty] at hc
      exact not_isBlank_of_isDecimalDigit (number.decimal c (List.mem_of_getLast? hc))
  | label target =>
      rw [written, target.toList_written, trim, target.trimEnd_written,
        trimStart_cons_of_solid not_isBlank_quote]

theorem referenceValue?_written (value : WrittenReference) :
    referenceValue? value.form (spaced value.written.toList) = some value.reference? := by
  have htrimmed := value.trim_written
  cases value with
  | nothing => rfl
  | dbref number =>
      have htext : (dbref number).written.toList = '#' :: number.chars := by simp [written]
      have hdecimal : number.chars.all isDecimalDigit = true := List.all_eq_true.mpr number.decimal
      have hsome : number.chars.isEmpty = false := by simp [number.nonempty]
      rw [htext] at htrimmed ⊢
      simp only [form, referenceValue?, dbref?, trim_spaced htrimmed, hdecimal, hsome,
        Bool.not_true, Bool.or_self, Bool.false_eq_true, if_false, Option.map_some, reference?]
      simp
  | label target =>
      simp only [form, referenceValue?, trimStart_spaced htrimmed, reference?]
      rw [written, target.toList_written, closingLabel?_written, Option.map_some,
        target.mk_eq_label]

theorem referenceValue?_earlier (value : WrittenReference) :
    ∀ form ∈ value.earlier, referenceValue? form (spaced value.written.toList) = none := by
  have htrimmed := value.trim_written
  intro form hform
  cases value with
  | nothing => cases hform
  | dbref number =>
      rw [List.mem_singleton.mp hform]
      have hblank := isBlankText_spaced htrimmed (by simp [written])
      simp [referenceValue?, hblank]
  | label target =>
      have htext : (label target).written.toList = '"' :: target.inner := target.toList_written
      rw [htext] at htrimmed ⊢
      rcases List.mem_cons.mp hform with rfl | hform
      · have hblank := isBlankText_spaced htrimmed (List.cons_ne_nil _ _)
        simp [referenceValue?, hblank]
      · rw [List.mem_singleton.mp hform]
        simp [referenceValue?, dbref?, trim_spaced htrimmed]

end WrittenReference

/-! ### Statements -/

namespace Classifier

variable (lastLiteral : Option Nat) (number : Nat)

theorem classify_attrBase (path : Value) :
    classify ⟨.outside, lastLiteral⟩ number ("ATTR BASE: " ++ path.text) =
      (⟨.outside, lastLiteral⟩, [.attrBase path.text]) := by
  have htext : ("ATTR BASE: " ++ path.text).toList =
      "ATTR BASE:".toList ++ ' ' :: path.chars := by
    simp [Value.text]
  have htrim : trim ("ATTR BASE: " ++ path.text).toList =
      "ATTR BASE:".toList ++ spaced path.chars := by
    rw [htext, trim_word_append (by simp) (by decide) path.trimmed]
  have hread : Form.attrBase.read? ("ATTR BASE:".toList ++ spaced path.chars) =
      some (.attrBase path.text) := by
    simp only [Form.read?, keyword?_append, Option.bind_some, trimStart_spaced path.trimmed,
      isSingleLine_of_not_mem path.single, if_true, Value.text]
  exact classify_of_read? htrim [] (Form.row_of_alone (by simp [Form.alone]) "ATTR BASE:" rfl)
    (by simp) hread rfl

theorem classify_exitAlias (exit names : QuotedText) :
    classify ⟨.outside, lastLiteral⟩ number
      ("ALIAS " ++ exit.written ++ " " ++ names.written) =
      (⟨.outside, lastLiteral⟩, [.exitAlias exit.label names.text]) := by
  have htext : ("ALIAS " ++ exit.written ++ " " ++ names.written).toList =
      "ALIAS".toList ++ ' ' :: (exit.written ++ " " ++ names.written).toList := by
    simp
  have hsolid : isBlank 'A' = false := by decide
  have htrim : trim ("ALIAS " ++ exit.written ++ " " ++ names.written).toList =
      "ALIAS".toList ++ ' ' :: (exit.written ++ " " ++ names.written).toList := by
    rw [htext, trim_append_pair "ALIAS".toList (by simp) (by simp [hsolid])]
  have hread : Form.exitAlias.read?
      ("ALIAS".toList ++ ' ' :: (exit.written ++ " " ++ names.written).toList) =
        some (.exitAlias exit.label names.text) := by
    simp only [Form.read?, keywordPair?_written, Option.map_some, QuotedText.quotedLabel_eq,
      QuotedText.text]
  exact classify_of_read? htrim [] (Form.row_of_alone (by simp [Form.alone]) "ALIAS" rfl)
    (by simp) hread rfl

theorem classify_reverse (exit back : QuotedText) :
    classify ⟨.outside, lastLiteral⟩ number
      ("REVERSE " ++ exit.written ++ " " ++ back.written) =
      (⟨.outside, lastLiteral⟩, [.reverse exit.label back.label]) := by
  have htext : ("REVERSE " ++ exit.written ++ " " ++ back.written).toList =
      "REVERSE".toList ++ ' ' :: (exit.written ++ " " ++ back.written).toList := by
    simp
  have hsolid : isBlank 'R' = false := by decide
  have htrim : trim ("REVERSE " ++ exit.written ++ " " ++ back.written).toList =
      "REVERSE".toList ++ ' ' :: (exit.written ++ " " ++ back.written).toList := by
    rw [htext, trim_append_pair "REVERSE".toList (by simp) (by simp [hsolid])]
  have hread : Form.reverse.read?
      ("REVERSE".toList ++ ' ' :: (exit.written ++ " " ++ back.written).toList) =
        some (.reverse exit.label back.label) := by
    simp only [Form.read?, keywordPair?_written, Option.map_some, QuotedText.quotedLabel_eq]
  exact classify_of_read? htrim [] (Form.row_of_alone (by simp [Form.alone]) "REVERSE" rfl)
    (by simp) hread rfl

theorem rows_reference (kind : ObjectKind) (slot : Slot) :
    [.reference kind slot .reset, .reference kind slot .dbref, .reference kind slot .label] <+:
      Form.table.dropWhile
        (·.excludes (kindWord kind ++ " " ++ slotWord slot ++ ":").toList) := by
  cases kind <;> cases slot <;> decide +kernel

theorem classify_reference (kind : ObjectKind) (slot : Slot) (value : WrittenReference) :
    classify ⟨.outside, lastLiteral⟩ number
      (kindWord kind ++ " " ++ slotWord slot ++ ": " ++ value.written) =
      (⟨.outside, lastLiteral⟩, [.setReference kind slot value.reference?]) := by
  have htext : (kindWord kind ++ " " ++ slotWord slot ++ ": " ++ value.written).toList =
      (kindWord kind ++ " " ++ slotWord slot ++ ":").toList ++ ' ' :: value.written.toList := by
    simp
  have htrim : trim (kindWord kind ++ " " ++ slotWord slot ++ ": " ++ value.written).toList =
      (kindWord kind ++ " " ++ slotWord slot ++ ":").toList ++ spaced value.written.toList := by
    rw [htext, trim_word_append (by simp) (by cases kind <;> cases slot <;> decide)
      value.trim_written]
  have hrows : value.earlier.map (.reference kind slot) ++ [.reference kind slot value.form] <+:
      Form.table.dropWhile
        (·.excludes (kindWord kind ++ " " ++ slotWord slot ++ ":").toList) := by
    refine List.IsPrefix.trans ?_ (rows_reference kind slot)
    cases value <;> exact ⟨_, rfl⟩
  have hpassed : ∀ other ∈ value.earlier.map (Form.reference kind slot), other.read?
      ((kindWord kind ++ " " ++ slotWord slot ++ ":").toList ++ spaced value.written.toList) =
        none := by
    intro other hother
    obtain ⟨form, hform, rfl⟩ := List.mem_map.mp hother
    simp only [Form.read?, keyword?_append, Option.bind_some,
      value.referenceValue?_earlier form hform, Option.map_none]
  have hread : (Form.reference kind slot value.form).read?
      ((kindWord kind ++ " " ++ slotWord slot ++ ":").toList ++ spaced value.written.toList) =
        some (.reference kind slot value.reference?) := by
    simp only [Form.read?, keyword?_append, Option.bind_some, value.referenceValue?_written,
      Option.map_some]
  exact classify_of_read? htrim _ hrows hpassed hread rfl

theorem classify_flags (kind : ObjectKind) (value : Value) :
    classify ⟨.outside, lastLiteral⟩ number (kindWord kind ++ " FLAGS: " ++ value.text) =
      (⟨.outside, lastLiteral⟩,
        [.setFlags kind (if value.text = "" then none else some value.text)]) := by
  have htext : (kindWord kind ++ " FLAGS: " ++ value.text).toList =
      (kindWord kind ++ " FLAGS:").toList ++ ' ' :: value.chars := by
    simp [Value.text]
  have htrim : trim (kindWord kind ++ " FLAGS: " ++ value.text).toList =
      (kindWord kind ++ " FLAGS:").toList ++ spaced value.chars := by
    rw [htext, trim_word_append (by simp) (by cases kind <;> decide) value.trimmed]
  have hrows : [.flags kind false, .flags kind true] <+:
      Form.table.dropWhile (·.excludes (kindWord kind ++ " FLAGS:").toList) := by
    cases kind <;> decide +kernel
  have hread : ∀ given, (Form.flags kind given).read?
      ((kindWord kind ++ " FLAGS:").toList ++ spaced value.chars) =
        (flagsValue? given (spaced value.chars)).map (.flags kind) := by
    intro given
    simp only [Form.read?, keyword?_append, Option.bind_some]
  by_cases hempty : value.chars = []
  · have hvalue : flagsValue? false (spaced value.chars) = some none := by
      rw [hempty]
      rfl
    have hfirst : [Form.flags kind false] <+: [.flags kind false, .flags kind true] := ⟨_, rfl⟩
    rw [if_pos (by simp [Value.text, hempty])]
    exact classify_of_read? htrim [] (hfirst.trans hrows) (by simp)
      (by rw [hread, hvalue, Option.map_some]) rfl
  · have hblank := isBlankText_spaced value.trimmed hempty
    have hnone : flagsValue? false (spaced value.chars) = none := by
      simp [flagsValue?, hblank]
    have hvalue : flagsValue? true (spaced value.chars) = some (some value.text) := by
      simp [flagsValue?, flagsText?, hblank, trim_spaced value.trimmed,
        isSingleLine_of_not_mem value.single, Value.text]
    rw [if_neg (by simpa [Value.text] using hempty)]
    refine classify_of_read? htrim [.flags kind false] hrows ?_
      (by rw [hread, hvalue, Option.map_some]) rfl
    intro other hother
    rw [List.mem_singleton.mp hother, hread, hnone, Option.map_none]

theorem classify_inRoom (room : WrittenLabel) :
    classify ⟨.outside, lastLiteral⟩ number ("IN " ++ room.written) =
      (.enter (.inside (.inRoom room.label)), [.nop]) := by
  have htext : ("IN " ++ room.written).toList = "IN ".toList ++ room.written.toList := by
    simp
  have hfront : "IN ".toList ++ room.written.toList =
      "IN".toList ++ ' ' :: room.written.toList := by
    simp
  have hsolid : isBlank 'I' = false := by decide
  have htrim : trim ("IN " ++ room.written).toList = "IN".toList ++ ' ' :: room.written.toList := by
    rw [htext, trim_append_written _ (by simp) (by simp [hsolid]), hfront]
  have hread : Form.inRoom.read? ("IN".toList ++ ' ' :: room.written.toList) =
      some (.inRoom room.label) := by
    rw [room.toList_written]
    simp only [Form.read?, keyword?_append, Option.bind_some, gap?, isBlank_space, if_true,
      trimStart_cons_of_solid not_isBlank_quote, closingLabel?_written, Option.map_some,
      room.mk_eq_label]
  exact classify_of_read? htrim [] (Form.row_of_alone (by simp [Form.alone]) "IN" rfl)
    (by simp) hread rfl

theorem classify_onExit (exit : QuotedText) (room : WrittenLabel) :
    classify ⟨.outside, lastLiteral⟩ number
      ("ON " ++ exit.written ++ " FROM " ++ room.written) =
      (.enter (.inside (.onExit room.label exit.label)), [.nop]) := by
  have htext : ("ON " ++ exit.written ++ " FROM " ++ room.written).toList =
      ("ON " ++ exit.written ++ " FROM ").toList ++ room.written.toList := by
    simp
  have hfront : ("ON " ++ exit.written ++ " FROM ").toList ++ room.written.toList =
      "ON".toList ++ ' ' :: (exit.written ++ " FROM " ++ room.written).toList := by
    simp
  have hsolid : isBlank 'O' = false := by decide
  have htrim : trim ("ON " ++ exit.written ++ " FROM " ++ room.written).toList =
      "ON".toList ++ ' ' :: (exit.written ++ " FROM " ++ room.written).toList := by
    rw [htext, trim_append_written _ (by simp) (by simp [hsolid]), hfront]
  have hread : Form.onExit.read?
      ("ON".toList ++ ' ' :: (exit.written ++ " FROM " ++ room.written).toList) =
        some (.onExit exit.label room.label) := by
    have hgap : gap? (' ' :: (exit.written ++ " FROM " ++ room.written).toList) =
        some (exit.written ++ " FROM " ++ room.written).toList := by
      have hquote : (exit.written ++ " FROM " ++ room.written).toList =
          '"' :: (exit.text ++ "\" FROM " ++ room.written).toList := by
        simp [QuotedText.written]
      rw [gap?, if_pos isBlank_space, hquote, trimStart_cons_of_solid not_isBlank_quote]
    simp only [Form.read?, keyword?_append, Option.bind_some, hgap, exitFrom?_written,
      Option.map_some, QuotedText.quotedLabel_eq, room.mk_eq_label]
  exact classify_of_read? htrim [] (Form.row_of_alone (by simp [Form.alone]) "ON" rfl)
    (by simp) hread rfl

theorem classify_of_link? {text : String} {rest exit first hops : List Char}
    (htrim : trim text.toList = ['"'] ++ rest)
    (hlink : link? ('"' :: rest) = some (exit, first, hops)) :
    classify ⟨.outside, lastLiteral⟩ number text =
      (⟨.outside, lastLiteral⟩,
        linkActions ⟨String.ofList exit⟩ ⟨String.ofList first⟩ (String.ofList hops)) := by
  have hread : Form.link.read? (['"'] ++ rest) =
      some (.link ⟨String.ofList exit⟩ ⟨String.ofList first⟩ (String.ofList hops)) := by
    rw [List.singleton_append, Form.read?, hlink]
    rfl
  exact classify_of_read? htrim [] (Form.row_of_alone (by simp [Form.alone]) "\"" rfl)
    (by simp) hread rfl

theorem classify_link (exit first : WrittenLabel) (hop : WrittenHop) (more : List WrittenHop) :
    classify ⟨.outside, lastLiteral⟩ number
      (exit.written ++ " : " ++ first.written ++
        String.join ((hop :: more).map WrittenHop.written)) =
      (⟨.outside, lastLiteral⟩, (Statement.link exit first hop more).actions) := by
  have htext : (exit.written ++ " : " ++ first.written ++
      String.join ((hop :: more).map WrittenHop.written)).toList =
      ['"'] ++
        (exit.inner ++ (" : ".toList ++ '"' :: (first.inner ++ pathText (hop :: more)))) := by
    simp [String.toList_join, WrittenLabel.toList_written, pathText, List.flatMap_map]
  have htrim : trim (exit.written ++ " : " ++ first.written ++
      String.join ((hop :: more).map WrittenHop.written)).toList =
      ['"'] ++
        (exit.inner ++ (" : ".toList ++ '"' :: (first.inner ++ pathText (hop :: more)))) := by
    have hpath : pathText (hop :: more) ≠ [] := by simp [pathText_cons]
    have hlast := solid_last_pathText (hop :: more)
    rw [htext, ← List.cons_append, ← List.append_assoc, ← List.append_assoc, ← List.append_assoc]
    exact trim_append_eq_self (by simp) hpath (by simp [not_isBlank_quote]) hlast
  have hactions : linkActions exit.label first.label (String.ofList (pathText (hop :: more))) =
      (Statement.link exit first hop more).actions := by
    rw [linkActions, String.toList_ofList, hops_written, pathActions_written]
    rfl
  rw [classify_of_link? lastLiteral number htrim (link?_written exit first hop more),
    exit.mk_eq_label, first.mk_eq_label, hactions]

/-- Whatever statement is written down as a line outside of blocks, the classifier answers with
just what the statement asks for, and is where the statement leads. -/
theorem classify_statement (statement : Statement) :
    classify ⟨.outside, lastLiteral⟩ number statement.text =
      (statement.next ⟨.outside, lastLiteral⟩, statement.actions) := by
  cases statement with
  | attrBase path => exact classify_attrBase lastLiteral number path
  | exitAlias exit names => exact classify_exitAlias lastLiteral number exit names
  | reverse exit back => exact classify_reverse lastLiteral number exit back
  | reference kind slot value => exact classify_reference lastLiteral number kind slot value
  | flags kind value => exact classify_flags lastLiteral number kind value
  | inRoom room => exact classify_inRoom lastLiteral number room
  | onExit exit room => exact classify_onExit lastLiteral number exit room
  | link exit first hop more => exact classify_link lastLiteral number exit first hop more

end Classifier

end Gridwright
