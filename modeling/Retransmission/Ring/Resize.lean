import Retransmission.Event
import Retransmission.Ring.Basic

/-! Changing the number of slots of a ring in use. New slots open between the
newest packet and the oldest, and slots are given up there too, oldest first.
The slots before the tail stay where they are unless the new ring ends among them. -/

namespace Retransmission

/-- The slots and the tail after a resize. A growing ring takes a tail at slot 0 for the end of
the last slot. -/
def relocate (blank : α) (slots : Array α) (tail target : Nat) : Array α × Nat :=
  let old := slots.size
  if target = old then (slots, tail)
  else if old < target then
    let tail := if tail = 0 then old else tail
    (slots.extract 0 tail ++ .replicate (target - old) blank ++ slots.extract tail old, tail)
  else if tail < target then
    (slots.extract 0 tail ++ slots.extract (tail + (old - target)) old, tail)
  else (slots.extract (tail - target) tail, 0)

section Relocate

variable {slots : Array α} {tail target : Nat}

theorem size_relocate (blank : α) (inside : tail < slots.size) :
    (relocate blank slots tail target).1.size = target := by
  rcases Nat.lt_trichotomy target slots.size with smaller | rfl | bigger
  · have fewer := Nat.not_lt.mpr (Nat.le_of_lt smaller)
    by_cases room : tail < target
    · simp [relocate, Nat.ne_of_lt smaller, fewer, room]
      omega
    · simp [relocate, Nat.ne_of_lt smaller, fewer, room]
      omega
  · simp [relocate]
  · by_cases atStart : tail = 0
    · simp [relocate, Nat.ne_of_gt bigger, bigger, atStart]
      omega
    · simp [relocate, Nat.ne_of_gt bigger, bigger, atStart]
      omega

theorem tail_relocate (blank : α) : (relocate blank slots tail target).2 =
    if target = slots.size then tail
    else if slots.size < target then if tail = 0 then slots.size else tail
    else if tail < target then tail
    else 0 := by
  simp only [relocate]
  split
  · rfl
  · split
    · rfl
    · split <;> rfl

theorem tail_relocate_lt (blank : α) (inside : tail < slots.size) (positive : 0 < target) :
    (relocate blank slots tail target).2 < target := by
  rw [tail_relocate]
  grind

end Relocate

namespace Ring

/-- The ring with a given number of slots, of which new ones hold the default of their kind. -/
def resize [Inhabited α] (ring : Ring α) (target : Capacity) : Ring α where
  slots := (relocate default ring.slots ring.tail target.slots).1
  tail := (relocate default ring.slots ring.tail target.slots).2
  tail_lt := by
    rw [size_relocate default ring.inside]
    exact tail_relocate_lt default ring.inside target.positive
  size_le := by
    rw [size_relocate default ring.inside]
    exact target.limited

@[simp] theorem capacity_resize [Inhabited α] (ring : Ring α) (target : Capacity) :
    (ring.resize target).capacity = target.slots :=
  size_relocate default ring.inside

def resizeEvents (ring : Ring α) (target : Nat) : List Event :=
  let old := ring.capacity
  if target = old then []
  else if target ≤ ring.tail then [.indicesInvalidated old target ring.tail, .resized old target]
  else [.resized old target]

/-- A resize worth making leaves the range from half the target up to, but not
including, its double. -/
def NearTarget (ring : Ring α) (target : Nat) : Prop :=
  target / 2 ≤ ring.capacity ∧ ring.capacity < target * 2

instance (ring : Ring α) (target : Nat) : Decidable (ring.NearTarget target) :=
  inferInstanceAs (Decidable (_ ∧ _))

/-- The tail is in the later half of the ring and of the target as well, so
that many slot indices would be lost. -/
def LateTail (ring : Ring α) (target : Nat) : Prop :=
  ring.capacity / 2 < ring.tail ∧ target / 2 < ring.tail

instance (ring : Ring α) (target : Nat) : Decidable (ring.LateTail target) :=
  inferInstanceAs (Decidable (_ ∧ _))

end Ring

end Retransmission
