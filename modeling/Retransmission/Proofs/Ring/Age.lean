import Retransmission.Proofs.Ring.Order

/-! The age of a slot: how many slots of the ring were written after it. A write
makes every slot older by one, except the oldest, which it takes. A resize keeps
the order of the slots, so a packet stays in its slot just when the age of the slot
stays the same. -/

namespace Retransmission.Ring

/-- The slots before the tail are the newer ones. -/
def age (ring : Ring α) (index : Nat) : Nat :=
  if index < ring.tail then ring.tail - 1 - index else ring.tail + ring.capacity - 1 - index

/-- Whether a resize leaves the packet of a slot in its place. -/
def Retains (ring : Ring α) (index target : Nat) : Prop :=
  target = ring.capacity ∨ (index < ring.tail ∧ ring.tail ≤ target) ∨
    (ring.tail = 0 ∧ ring.capacity < target)

instance (ring : Ring α) (index target : Nat) : Decidable (ring.Retains index target) :=
  inferInstanceAs (Decidable (_ ∨ _))

theorem age_lt (ring : Ring α) {index : Nat} (within : index < ring.capacity) :
    ring.age index < ring.capacity := by
  have inside := ring.inside
  rw [age]
  split <;> omega

theorem getElem?_slots (ring : Ring α) {index : Nat} (within : index < ring.capacity) :
    ring.slots[index]? = ring.newestFirst[ring.age index]? := by
  have inside := ring.inside
  have place : (ring.tail + ring.capacity - 1 - ring.age index) % ring.capacity = index := by
    rw [age]
    split
    · have turn : ring.tail + ring.capacity - 1 - (ring.tail - 1 - index) =
          index + ring.capacity := by omega
      rw [turn, Nat.add_mod_right]
      exact Nat.mod_eq_of_lt within
    · have back : ring.tail + ring.capacity - 1 - (ring.tail + ring.capacity - 1 - index) =
          index := by omega
      rw [back]
      exact Nat.mod_eq_of_lt within
  rw [ring.getElem?_newestFirst (ring.age_lt within), place]

theorem mem_newestFirst {ring : Ring α} {slot : α} :
    slot ∈ ring.newestFirst ↔ slot ∈ ring.slots := by
  have split : slot ∈ ring.slots.toList.take ring.tail ++ ring.slots.toList.drop ring.tail ↔
      slot ∈ ring.slots := by
    rw [List.take_append_drop, Array.mem_toList_iff]
  rw [newestFirst, List.mem_reverse, oldestFirst, List.mem_append, or_comm, ← List.mem_append,
    split]

theorem age_beforeTail (ring : Ring α) : ring.age ring.beforeTail = 0 := by
  have inside := ring.inside
  rw [age, beforeTail]
  split <;> split <;> omega

section Write

variable (ring : Ring α) (change : α → α)

theorem tail_write : (ring.write change).tail =
    if ring.tail + 1 = ring.capacity then 0 else ring.tail + 1 := by
  have inside := ring.inside
  simp only [write, afterTail]
  split
  · rename_i last
    rw [last, Nat.mod_self]
  · exact Nat.mod_eq_of_lt (by omega)

theorem age_write_tail : (ring.write change).age ring.tail = 0 := by
  rw [age, capacity_write, tail_write]
  have inside := ring.inside
  split <;> split <;> omega

theorem age_write {index : Nat} (within : index < ring.capacity)
    (spared : ring.age index + 1 < ring.capacity) :
    (ring.write change).age index = ring.age index + 1 := by
  have inside := ring.inside
  rw [age] at spared
  rw [age, age, capacity_write, tail_write]
  split at spared <;> split <;> split <;> omega

end Write

theorem eq_tail_of_age (ring : Ring α) {index : Nat} (within : index < ring.capacity)
    (oldest : ring.age index + 1 = ring.capacity) : index = ring.tail := by
  have inside := ring.inside
  rw [age] at oldest
  split at oldest <;> omega

/-- A resize keeps the age of a slot exactly when it keeps the packet there. -/
theorem age_resize_iff [Inhabited α] (ring : Ring α) (target : Capacity) {index : Nat}
    (within : index < ring.capacity) :
    (index < target.slots ∧ ring.age index < target.slots ∧
        (ring.resize target).age index = ring.age index) ↔ ring.Retains index target.slots := by
  have inside := ring.inside
  rw [age, age, capacity_resize, tail_resize, Retains]
  rcases Nat.lt_trichotomy target.slots ring.capacity with smaller | same | bigger
  · rw [if_neg (Nat.ne_of_lt smaller), if_neg (Nat.not_lt.mpr (Nat.le_of_lt smaller))]
    by_cases room : ring.tail < target.slots
    · rw [if_pos room]
      split <;> omega
    · rw [if_neg room, if_neg (Nat.not_lt_zero index)]
      split <;> omega
  · rw [if_pos same, same]
    split <;> omega
  · rw [if_neg (Nat.ne_of_gt bigger), if_pos bigger]
    by_cases start : ring.tail = 0
    · rw [if_pos start, if_pos within, start, if_neg (Nat.not_lt_zero index)]
      omega
    · rw [if_neg start]
      split <;> omega

end Retransmission.Ring
