import Gridwright.Proofs.Line.OpenLabels
import Mathlib.Data.Bool.AllAny

/-!
# Where the label of a description ends

The equals sign between a label and its description is also a character that the suffix of a
label may hold, though not start with.  A suffix is taken as long as possible, so it goes on into
the description wherever another equals sign can divide the line: in the first word of the
description or right behind that word.  `EqualsNearby` says when that happens.  A description is
read as it was written exactly if the label has no suffix or no equals sign is nearby
(`describe_read_back_iff`).
-/

namespace Gridwright

open Gridwright.Text

namespace Line

/-! ### Equals signs in the first word -/

/-- An equals sign stands in the first word of a text or, blank characters apart, right behind
it. -/
def EqualsNearby (s : List Char) : Prop :=
  '=' ∈ s.takeWhile (!isBlank ·) ∨ (trimStart (s.dropWhile (!isBlank ·))).head? = some '='

instance : DecidablePred EqualsNearby :=
  fun s => inferInstanceAs (Decidable ('=' ∈ s.takeWhile (!isBlank ·) ∨
    (trimStart (s.dropWhile (!isBlank ·))).head? = some '='))

theorem equalsNearby_cons {c : Char} (hc : isBlank c = false) (s : List Char) :
    EqualsNearby (c :: s) ↔ c = '=' ∨ EqualsNearby s := by
  simp only [EqualsNearby, List.takeWhile_cons, List.dropWhile_cons, hc, Bool.not_false, if_true,
    List.mem_cons, or_assoc, eq_comm]

/-- Such an equals sign starts what is left behind some beginning of the first word. -/
theorem equalsNearby_iff {s : List Char} :
    EqualsNearby s ↔
      ∃ way ∈ OpenLabel.runEnds s, (trimStart way.2).head? = some '=' := by
  induction s with
  | nil => simp [EqualsNearby, OpenLabel.runEnds, trimStart]
  | cons c s ih =>
      rw [OpenLabel.runEnds]
      cases hc : isBlank c with
      | true => simp [EqualsNearby, hc]
      | false =>
          rw [equalsNearby_cons hc, ih]
          simp only [Bool.false_eq_true, if_false, OpenLabel.prepend, List.mem_append,
            List.mem_map, List.mem_singleton, or_and_right, exists_or, exists_eq_left,
            trimStart_cons_of_solid hc, List.head?_cons, Option.some_inj]
          rw [or_comm]
          simp

/-! ### What the end of a line is worth -/

namespace Description

theorem single_ahead {s : List Char} (h : '\n' ∉ s) : (ahead s).single = true := by
  induction s with
  | nil => rfl
  | cons c s ih =>
      rw [List.mem_cons, not_or] at h
      simp [Ahead.step, ih h.2, Ne.symm h.1]

theorem rest_ahead (s : List Char) : (ahead s).rest = s := by
  induction s with
  | nil => rfl
  | cons c s ih => simp [Ahead.step, ih]

theorem text_ahead {s : List Char} (h : '\n' ∉ s) : (ahead s).text = some (trimStart s) := by
  induction s with
  | nil => rfl
  | cons c s ih =>
      have hsingle := single_ahead h
      rw [List.mem_cons, not_or] at h
      cases hc : isBlank c with
      | true => simp [Ahead.step, hc, ih h.2, trimStart_cons_of_blank hc]
      | false =>
          simp only [ahead_cons, Ahead.step] at hsingle
          simp [Ahead.step, hc, trimStart_cons_of_solid hc, rest_ahead, hsingle]

theorem assigned_ahead_of_solid {c : Char} (hc : isBlank c = false) (s : List Char) :
    (ahead (c :: s)).assigned = if c = '=' then (ahead s).text else none := by
  simp [Ahead.step, hc]

/-- A text is worth something if an equals sign is the first thing in it that is not blank. -/
theorem isSome_assigned_ahead {s : List Char} (h : '\n' ∉ s) :
    (ahead s).assigned.isSome = true ↔ (trimStart s).head? = some '=' := by
  induction s with
  | nil => simp [Ahead.nil, trimStart]
  | cons c s ih =>
      rw [List.mem_cons, not_or] at h
      cases hc : isBlank c with
      | true =>
          rw [trimStart_cons_of_blank hc, ← ih h.2]
          simp [Ahead.step, hc]
      | false =>
          rw [assigned_ahead_of_solid hc, trimStart_cons_of_solid hc, text_ahead h.2]
          by_cases heq : c = '='
          · simp [heq]
          · simp [heq]

/-- The label of a description is read like any label inside a line. -/
theorem label_ahead (s : List Char) :
    (ahead s).label = OpenLabel.scan startsDescribed (fun rest => (ahead rest).assigned) s := by
  induction s with
  | nil => rfl
  | cons c s ih =>
      rw [OpenLabel.scan, ← ih]
      rfl

end Description

namespace OpenLabel

variable {α : Type} {worth : List Char → Option α}

/-- Ends of a line that are worth nothing are passed over. -/
theorem pick_runEnds_append {s : List Char} (hsolid : ∀ c ∈ s, isBlank c = false)
    (rest : List Char) (hworth : ∀ c ∈ s, ∀ tail, worth (c :: tail) = none) :
    pick worth (runEnds (s ++ rest)) =
      (pick worth (runEnds rest)).map fun read => (s ++ read.1, read.2) := by
  induction s with
  | nil => simp
  | cons c s ih =>
      rw [List.forall_mem_cons] at hsolid hworth
      rw [List.cons_append, runEnds, hsolid.1, if_neg Bool.false_ne_true, pick_append,
        pick_prepend, pick_singleton, hworth.1, ih hsolid.2 hworth.2]
      cases pick worth (runEnds rest) <;> rfl

/-- A label whose first quote lets the line be read ends there. -/
theorem body_scan_of_closed (starts : Char → Bool) {name s : List Char}
    (hname : ∀ c ∈ name, c ≠ '"' ∧ c ≠ '\n') {read : List Char × α}
    (hclosed : (scan starts worth s).closed = some read) :
    (scan starts worth (name ++ '"' :: s)).body = some (name ++ '"' :: read.1, read.2) := by
  induction name with
  | nil => simp [scan, Ahead.step, hclosed, extend]
  | cons c name ih =>
      rw [List.forall_mem_cons] at hname
      simp [scan, Ahead.step, ih hname.2, hname.1, extend]

end OpenLabel

/-! ### Labels in front of a description -/

namespace Description

/-- What a suffix takes of the description behind it, and the description that is left then. -/
def taken? (text : List Char) : Option (List Char × List Char) :=
  OpenLabel.pick (fun rest => (ahead rest).assigned) (OpenLabel.runEnds text)

theorem isSome_taken?_iff {text : List Char} (h : '\n' ∉ text) :
    (taken? text).isSome = true ↔ EqualsNearby text := by
  rw [equalsNearby_iff, taken?, OpenLabel.pick, List.findSome?_isSome_iff]
  refine exists_congr fun way => and_congr_right fun hway => ?_
  obtain ⟨rfl, -⟩ := OpenLabel.mem_runEnds.mp hway
  rw [Option.isSome_map, isSome_assigned_ahead fun hfeed => h (List.mem_append_right _ hfeed)]

theorem assigned_ahead_equals {text : List Char} (h : '\n' ∉ text) :
    (ahead ('=' :: text)).assigned = some (trimStart text) := by
  rw [assigned_ahead_of_solid (by decide), if_pos rfl, text_ahead h]

/-- A suffix that has started ends at the equals sign behind it, unless it goes on into the
description. -/
theorem run_ahead {suffix text : List Char} (hsolid : ∀ c ∈ suffix, isBlank c = false)
    (hequals : '=' ∉ suffix) (hsingle : '\n' ∉ text) :
    (ahead (suffix ++ '=' :: text)).label.run =
      some (((taken? text).map fun read => (suffix ++ '=' :: read.1, read.2)).getD
        (suffix, trimStart text)) := by
  have hworth : ∀ c ∈ suffix, ∀ tail, (ahead (c :: tail)).assigned = none := by
    intro c hc tail
    rw [assigned_ahead_of_solid (hsolid c hc), if_neg fun heq : c = '=' => hequals (heq ▸ hc)]
  have hblank : isBlank '=' = false := by decide
  rw [label_ahead, OpenLabel.run_scan_eq_pick, OpenLabel.pick_runEnds_append hsolid _ hworth,
    OpenLabel.runEnds, hblank, if_neg Bool.false_ne_true, OpenLabel.pick_append,
    OpenLabel.pick_prepend, OpenLabel.pick_singleton, assigned_ahead_equals hsingle, ← taken?]
  cases taken? text with
  | none => simp [extend]
  | some read => simp [extend]

end Description

end Line

open Line

namespace WrittenLabel

variable (label : WrittenLabel)

/-- What a label takes of the description behind it, which is nothing if it has no suffix, and
the description that is left then. -/
def takes? (text : List Char) : Option (List Char × List Char) :=
  if label.suffix = [] then none else Description.taken? text

theorem takes?_eq_none_iff {text : List Char} (hsingle : '\n' ∉ text) :
    label.takes? text = none ↔ label.suffix = [] ∨ ¬ EqualsNearby text := by
  rw [← Description.isSome_taken?_iff hsingle, takes?]
  split
  · rename_i hnone
    exact iff_of_true rfl (.inl hnone)
  · rename_i hsome
    rw [or_iff_right hsome, Bool.not_eq_true, Option.isSome_eq_false_iff, Option.isNone_iff_eq_none]

theorem closed_ahead (hequals : '=' ∉ label.suffix) {text : List Char} (hsingle : '\n' ∉ text) :
    (Description.ahead (label.suffix ++ '=' :: text)).label.closed =
      some (((label.takes? text).map fun read => (label.suffix ++ '=' :: read.1, read.2)).getD
        (label.suffix, trimStart text)) := by
  cases hsuffix : label.suffix with
  | nil =>
      -- an equals sign starts no suffix, so it divides the line
      have hstarts : Description.startsDescribed '=' = false := by decide
      have hblank : isBlank '=' = false := by decide
      simp [Description.Ahead.step, OpenLabel.Ahead.step, hstarts, hblank,
        Description.text_ahead hsingle, takes?, hsuffix]
  | cons c rest =>
      have hstarts := label.startsSuffix_of_head (c := c) (by rw [hsuffix]; rfl)
      have hsolid := label.solid
      rw [hsuffix, List.mem_cons, not_or] at hequals
      rw [hsuffix, List.forall_mem_cons] at hsolid
      have hrun := Description.run_ahead (fun d hd => (hsolid.2 d hd).1) hequals.2 hsingle
      have hdescribed : Description.startsDescribed c = true := by
        simp [Description.startsDescribed, hstarts, Ne.symm hequals.1]
      simp only [List.cons_append, Description.ahead_cons, Description.Ahead.step,
        OpenLabel.Ahead.step, hdescribed, if_true, hrun, takes?, hsuffix]
      cases Description.taken? text <;> simp [extend]

/-- A label and a description are read as they were written, but for what the label takes. -/
theorem description?_written (hequals : '=' ∉ label.suffix) {text : List Char}
    (hsingle : '\n' ∉ text) :
    description? ('"' :: (label.inner ++ '=' :: text)) =
      some (((label.takes? text).map fun read =>
        ('"' :: (label.inner ++ '=' :: read.1), read.2)).getD
          ('"' :: label.inner, trimStart text)) := by
  have hclosed := label.closed_ahead hequals hsingle
  rw [Description.label_ahead] at hclosed
  have hbody := OpenLabel.body_scan_of_closed _ label.name.plain hclosed
  rw [← Description.label_ahead] at hbody
  rw [description?, if_pos rfl, inner, List.append_assoc, List.cons_append, hbody]
  cases label.takes? text <;> simp [extend]

end WrittenLabel

/-! ### Lines -/

namespace Classifier

variable (lastLiteral : Option Nat) (number : Nat)

/-- Under either word a description is read as its label and its text. -/
theorem classify_describe {word : String} (hword : word ∈ ["DESC", "DESCRIBE"])
    {body : String} {inner room text : List Char} (hbody : body.toList = '"' :: inner)
    (hend : ∀ c ∈ ('"' :: inner).getLast?, isBlank c = false)
    (hread : description? ('"' :: inner) = some (room, text)) :
    classify ⟨.outside, lastLiteral⟩ number (word ++ " " ++ body) =
      (⟨.outside, lastLiteral⟩,
        [.bufferRoom ⟨String.ofList room⟩ ("\n@describe here=" ++ String.ofList text)]) := by
  obtain ⟨ending, htext, hgap⟩ : ∃ ending : List Char,
      (word ++ " " ++ body).toList = "DESC".toList ++ (ending ++ ' ' :: '"' :: inner) ∧
      (keyword? "RIBE" (ending ++ ' ' :: '"' :: inner)).getD (ending ++ ' ' :: '"' :: inner) =
        ' ' :: '"' :: inner := by
    simp only [List.mem_cons, List.not_mem_nil, or_false] at hword
    rcases hword with rfl | rfl
    · refine ⟨[], by simp [hbody], ?_⟩
      have hother : keyword? "RIBE" ([' '] ++ '"' :: inner) = none :=
        keyword?_eq_none_of_clash (by decide) _
      rw [List.nil_append, ← List.singleton_append, hother, Option.getD_none]
    · refine ⟨"RIBE".toList, by simp [hbody], ?_⟩
      rw [keyword?_append, Option.getD_some]
  have htrim : trim (word ++ " " ++ body).toList =
      "DESC".toList ++ (ending ++ ' ' :: '"' :: inner) := by
    have hsolid : isBlank 'D' = false := by decide
    rw [htext, ← List.append_assoc]
    refine trim_append_eq_self (by simp) (List.cons_ne_nil _ _) (by simp [hsolid]) ?_
    rwa [List.getLast?_cons_of_ne_nil (List.cons_ne_nil _ _)]
  have hform : Form.describe.read? ("DESC".toList ++ (ending ++ ' ' :: '"' :: inner)) =
      some (.describe ⟨String.ofList room⟩ (String.ofList text)) := by
    simp only [Form.read?, describe?, keyword?_append, Option.bind_some, hgap, gap?,
      isBlank_space, if_true, trimStart_cons_of_solid not_isBlank_quote, hread, Option.map_some]
  exact classify_of_read? htrim [] (Form.row_of_alone (by simp [Form.alone]) "DESC" rfl)
    (by simp) hform rfl

/-- A description is read as it was written exactly if its label has no suffix or there is no
equals sign in the first word of the text or right behind it.  Otherwise the suffix takes the
text up to such a sign, and what is left describes another room. -/
theorem describe_read_back_iff {word : String} (hword : word ∈ ["DESC", "DESCRIBE"])
    (label : WrittenLabel) (hequals : '=' ∉ label.suffix) (text : Value) :
    let read := classify ⟨.outside, lastLiteral⟩ number
      (word ++ " " ++ label.written ++ "=" ++ text.text)
    (read = (⟨.outside, lastLiteral⟩,
        [.bufferRoom label.label ("\n@describe here=" ++ text.text)]) ↔
      label.suffix = [] ∨ ¬ EqualsNearby text.chars) ∧
    (label.suffix ≠ [] → EqualsNearby text.chars → ∃ more behind,
      read = (⟨.outside, lastLiteral⟩,
        [.bufferRoom ⟨label.written ++ "=" ++ more⟩ ("\n@describe here=" ++ behind)])) := by
  intro read
  have hbody : (label.written ++ "=" ++ text.text).toList =
      '"' :: (label.inner ++ '=' :: text.chars) := by
    simp [label.toList_written, Value.text]
  have hend : ∀ c ∈ ('"' :: (label.inner ++ '=' :: text.chars)).getLast?, isBlank c = false := by
    intro c hc
    rw [← List.cons_append, List.getLast?_append_of_ne_nil _ (List.cons_ne_nil _ _)] at hc
    by_cases hempty : text.chars = []
    · rw [hempty] at hc
      cases hc
      decide
    · rw [List.getLast?_cons_of_ne_nil hempty] at hc
      exact (trim_eq_self_iff.mp text.trimmed).2 c hc
  have hstart : trimStart text.chars = text.chars :=
    trimStart_eq_self_iff.mpr (trim_eq_self_iff.mp text.trimmed).1
  have hdescription := label.description?_written hequals text.single
  rw [hstart] at hdescription
  have hread : read = classify ⟨.outside, lastLiteral⟩ number
      (word ++ " " ++ (label.written ++ "=" ++ text.text)) := by
    simp only [read, String.append_assoc]
  have hnone := label.takes?_eq_none_iff text.single
  cases htakes : label.takes? text.chars with
  | none =>
      rw [htakes] at hdescription hnone
      have hplain : label.suffix = [] ∨ ¬ EqualsNearby text.chars := hnone.mp rfl
      have hsame := classify_describe lastLiteral number hword hbody hend hdescription
      rw [← hread, label.mk_eq_label] at hsame
      refine ⟨iff_of_true hsame hplain, ?_⟩
      intro hsuffix hnear
      exact (hplain.elim hsuffix fun hfar => hfar hnear).elim
  | some taken =>
      rw [htakes] at hdescription hnone
      have hother := classify_describe lastLiteral number hword hbody hend hdescription
      have hlabel : String.ofList ('"' :: (label.inner ++ '=' :: taken.1)) =
          label.written ++ "=" ++ String.ofList taken.1 := by
        rw [← String.toList_inj]
        simp [label.toList_written]
      rw [← hread, hlabel] at hother
      refine ⟨iff_of_false ?_ fun hplain => Option.some_ne_none _ (hnone.mpr hplain), ?_⟩
      · intro hsame
        -- the label that is read is longer than the one that was written
        have hactions := (Prod.mk.inj (hother.symm.trans hsame)).2
        obtain ⟨hroom, -⟩ := Action.bufferRoom.inj (List.singleton_inj.mp hactions)
        have htext : label.written ++ "=" ++ String.ofList taken.1 = label.written :=
          congrArg Label.text hroom
        have hsign : "=".length = 1 := by decide
        have hlength := congrArg String.length htext
        simp only [String.length_append, hsign] at hlength
        omega
      · exact fun _ _ => ⟨_, _, hother⟩

/-- A description with an equals sign that is not nearby. -/
theorem describe_read_back_iff_sample :
    ∃ (label : WrittenLabel) (text : Value), label.written = "\"Old Hall\"2" ∧
      text.text = "Stones, moss = silence." ∧
      "DESCRIBE" ∈ ["DESC", "DESCRIBE"] ∧ '=' ∉ label.suffix ∧ ¬ EqualsNearby text.chars ∧
      classify {} 7 ("DESCRIBE" ++ " " ++ label.written ++ "=" ++ text.text) =
        ({}, [.bufferRoom label.label ("\n@describe here=" ++ text.text)]) := by
  let label : WrittenLabel :=
    { name := ⟨"Old Hall".toList, List.all_iff_forall_prop.mp (by decide)⟩
      suffix := ['2']
      solid := List.all_iff_forall_prop.mp (by decide)
      noArrow := by simp }
  let text : Value := ⟨"Stones, moss = silence.".toList, by decide, by decide⟩
  have hword : "DESCRIBE" ∈ ["DESC", "DESCRIBE"] := by decide
  have hequals : '=' ∉ label.suffix := by decide
  have hfar : ¬ EqualsNearby text.chars := by decide
  refine ⟨label, text, by decide, by decide, hword, hequals, hfar, ?_⟩
  exact (describe_read_back_iff none 7 hword label hequals text).1.mpr (.inr hfar)

/-- The suffix goes on into a description whose first word holds an equals sign. -/
theorem description_of_another_room :
    ∃ (label : WrittenLabel) (text : Value), '=' ∉ label.suffix ∧ label.written = "\"A\"2" ∧
      text.text = "a=b" ∧
      classify {} 1 ("DESC " ++ label.written ++ "=" ++ text.text) =
        ({}, [.bufferRoom ⟨"\"A\"2=a"⟩ "\n@describe here=b"]) ∧
      classify {} 1 ("DESC " ++ label.written ++ "=" ++ text.text) ≠
        ({}, [.bufferRoom label.label ("\n@describe here=" ++ text.text)]) := by
  let label : WrittenLabel :=
    { name := ⟨['A'], List.all_iff_forall_prop.mp (by decide)⟩
      suffix := ['2']
      solid := List.all_iff_forall_prop.mp (by decide)
      noArrow := by simp }
  let text : Value := ⟨"a=b".toList, by decide, by decide⟩
  exact ⟨label, text, by decide +kernel⟩

end Classifier

end Gridwright
