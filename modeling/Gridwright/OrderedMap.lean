/-!
# Maps that keep the order of insertion

A map from keys to values that lists its entries in the order in which their
keys were first inserted.  Replacing the value of a key leaves the key in its
place.
-/

namespace Gridwright

structure OrderedMap (κ ν : Type) where
  entries : List (κ × ν) := []
deriving DecidableEq

namespace OrderedMap

variable {κ ν : Type} [DecidableEq κ]

def find? (map : OrderedMap κ ν) (key : κ) : Option ν :=
  (map.entries.find? (·.1 = key)).map (·.2)

def contains (map : OrderedMap κ ν) (key : κ) : Bool := (map.find? key).isSome

/-- The entries with the value of a key set. -/
def insertEntry (key : κ) (value : ν) : List (κ × ν) → List (κ × ν)
  | [] => [(key, value)]
  | entry :: rest =>
    if entry.1 = key then (key, value) :: rest else entry :: insertEntry key value rest

/-- The map with the value of a key set.  A new key comes last. -/
def insert (map : OrderedMap κ ν) (key : κ) (value : ν) : OrderedMap κ ν :=
  ⟨insertEntry key value map.entries⟩

/-- The map with the value of a key set, unless the key has one already. -/
def insertNew (map : OrderedMap κ ν) (key : κ) (value : ν) : OrderedMap κ ν :=
  if map.contains key then map else map.insert key value

def values (map : OrderedMap κ ν) : List ν := map.entries.map (·.2)

/-- After an insertion the key has the new value and the others are as before. -/
theorem find?_insert (map : OrderedMap κ ν) (key other : κ) (value : ν) :
    (map.insert key value).find? other = if other = key then some value else map.find? other := by
  obtain ⟨entries⟩ := map
  simp only [find?, insert]
  induction entries with
  | nil => by_cases h : other = key <;> simp [insertEntry, h, eq_comm]
  | cons entry rest ih =>
    by_cases hk : entry.1 = key
    · by_cases h : other = key
      · simp [insertEntry, hk, h]
      · have : ¬ key = other := fun e => h e.symm
        simp [insertEntry, hk, h, this]
    · by_cases ho : entry.1 = other
      · have : ¬ other = key := fun e => hk (ho.trans e)
        simp [insertEntry, ho, this]
      · simpa [insertEntry, hk, ho] using ih

end OrderedMap

end Gridwright
