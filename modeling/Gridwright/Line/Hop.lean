import Gridwright.Label
import Gridwright.Line.ClosingLabel

/-!
# Hops

A hop is an arrow, `->` or `<->`, and the label of the room it leads to.  The
label ends at the first quote behind its opening quote, and its suffix runs up to
the next blank character.  `hops` finds the hops of a text one behind another and
passes over whatever stands between them.
-/

namespace Gridwright

/-- One step of a path: the room it leads to, and whether the exit's reverse
leads back. -/
structure Hop where
  twoWay : Bool
  room : Label
deriving DecidableEq

namespace Line

open Gridwright.Text

/-- Takes an arrow off the front of a text and tells whether it is two-way. -/
def arrow? : List Char → Option (Bool × List Char)
  | '<' :: '-' :: '>' :: s => some (true, s)
  | '-' :: '>' :: s => some (false, s)
  | _ => none

theorem arrow?_length {s rest : List Char} {twoWay : Bool}
    (h : arrow? s = some (twoWay, rest)) : rest.length < s.length := by
  unfold arrow? at h
  split at h
  · simp only [Option.some.injEq, Prod.mk.injEq] at h
    rw [← h.2]
    simp only [List.length_cons]
    omega
  · simp only [Option.some.injEq, Prod.mk.injEq] at h
    rw [← h.2]
    simp only [List.length_cons]
    omega
  · simp at h

/-- The suffix at the front of a text, possibly empty. -/
def suffixOf : List Char → List Char
  | [] => []
  | c :: s => if startsSuffix c then c :: s.takeWhile (!isBlank ·) else []

/-- Whether a character may stand between the quotes of a label that ends at its
first inner quote. -/
def insideQuotes (c : Char) : Bool := c != '"' && c != '\n'

/-- Takes a label that ends at its first inner quote off the front of a text. -/
def firstLabel? : List Char → Option (List Char × List Char)
  | '"' :: s =>
    match s.dropWhile insideQuotes with
    | '"' :: rest =>
      let suffix := suffixOf rest
      some ('"' :: s.takeWhile insideQuotes ++ '"' :: suffix, rest.drop suffix.length)
    | _ => none
  | _ => none

theorem firstLabel?_length {s text rest : List Char}
    (h : firstLabel? s = some (text, rest)) : rest.length < s.length := by
  unfold firstLabel? at h
  split at h
  · rename_i inner
    split at h
    · rename_i after hafter
      have hle : (('"' : Char) :: after).length ≤ inner.length := by
        rw [← hafter]
        exact (List.dropWhile_sublist _).length_le
      simp only [Option.some.injEq, Prod.mk.injEq] at h
      simp only [List.length_cons] at hle ⊢
      rw [← h.2, List.length_drop]
      omega
    · simp at h
  · simp at h

/-- Takes a hop off the front of a text. -/
def hop? (s : List Char) : Option (Hop × List Char) :=
  match arrow? s with
  | none => none
  | some (twoWay, behind) =>
    match firstLabel? (trimStart behind) with
    | none => none
    | some (text, rest) => some (⟨twoWay, ⟨String.ofList text⟩⟩, rest)

theorem hop?_length {s rest : List Char} {hop : Hop}
    (h : hop? s = some (hop, rest)) : rest.length < s.length := by
  unfold hop? at h
  split at h
  · simp at h
  · rename_i twoWay behind harrow
    split at h
    · simp at h
    · rename_i text after hlabel
      simp only [Option.some.injEq, Prod.mk.injEq] at h
      have h₁ := arrow?_length harrow
      have h₂ := firstLabel?_length hlabel
      have h₃ : (trimStart behind).length ≤ behind.length :=
        (List.dropWhile_sublist _).length_le
      rw [← h.2]
      omega

/-- The hops of a text, from left to right. -/
def hops : List Char → List Hop
  | [] => []
  | c :: s =>
    match _h : hop? (c :: s) with
    | some (hop, rest) => hop :: hops rest
    | none => hops s
termination_by s => s.length
decreasing_by
  · exact hop?_length _h
  · simp

end Line

end Gridwright
