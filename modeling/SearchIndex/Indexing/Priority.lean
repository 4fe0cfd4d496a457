/-!
# Priorities

How soon a change should reach the index. Priorities are ordered by their
number, from one for background work to four for what a user is waiting to see.
-/

namespace SearchIndex

/-- How soon a change should reach the index. -/
inductive Priority where
  | low
  | default
  | high
  | highest
  deriving DecidableEq, Repr

namespace Priority

/-- All priorities, the lowest first. -/
def all : List Priority := [.low, .default, .high, .highest]

/-- The number of a priority. -/
def value : Priority → Nat
  | .low => 1
  | .default => 2
  | .high => 3
  | .highest => 4

/-- The priority of a number; numbers out of range count as the nearest in range. -/
def ofValue : Nat → Priority
  | 0 | 1 => .low
  | 2 => .default
  | 3 => .high
  | _ => .highest

/-- The word for a priority. -/
def word : Priority → String
  | .low => "Low"
  | .default => "Default"
  | .high => "High"
  | .highest => "Highest"

instance : LE Priority where
  le a b := a.value ≤ b.value

instance (a b : Priority) : Decidable (a ≤ b) :=
  inferInstanceAs (Decidable (a.value ≤ b.value))

instance : Ord Priority where
  compare a b := compare a.value b.value

instance : Max Priority where
  max a b := if a ≤ b then b else a

@[simp] theorem ofValue_value (p : Priority) : ofValue p.value = p := by
  cases p <;> rfl

theorem le_iff {a b : Priority} : a ≤ b ↔ a.value ≤ b.value := Iff.rfl

end Priority

end SearchIndex
