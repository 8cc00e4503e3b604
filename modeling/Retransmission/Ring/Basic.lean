import Retransmission.Capacity

/-! A ring of slots, whatever they hold. Slots are written in turn at the tail, so the
slot before the tail is the newest and the tail itself the oldest. -/

namespace Retransmission

/-- `tail` is the slot to be written next. Every slot has an index of 16 bits. -/
@[ext]
structure Ring (α : Type u) where
  slots : Array α
  tail : Nat
  tail_lt : tail < slots.size
  size_le : slots.size ≤ Capacity.limit
deriving DecidableEq

namespace Ring

def capacity (ring : Ring α) : Nat := ring.slots.size

theorem inside (ring : Ring α) : ring.tail < ring.capacity := ring.tail_lt

theorem limited (ring : Ring α) : ring.capacity ≤ Capacity.limit := ring.size_le

theorem positive (ring : Ring α) : 0 < ring.capacity := Nat.zero_lt_of_lt ring.inside

/-- The capacity as one that a ring can have. -/
def size (ring : Ring α) : Capacity :=
  ⟨ring.capacity, (Capacity.fault?_eq_none_iff _).mpr ⟨ring.positive, ring.limited⟩⟩

def filled (capacity : Capacity) (slot : α) : Ring α where
  slots := .replicate capacity.slots slot
  tail := 0
  tail_lt := by
    rw [Array.size_replicate]
    exact capacity.positive
  size_le := by
    rw [Array.size_replicate]
    exact capacity.limited

/-- The slot written after the tail. -/
def afterTail (ring : Ring α) : Nat := (ring.tail + 1) % ring.capacity

/-- The slot written before the tail. -/
def beforeTail (ring : Ring α) : Nat :=
  if ring.tail = 0 then ring.capacity - 1 else ring.tail - 1

theorem beforeTail_lt (ring : Ring α) : ring.beforeTail < ring.capacity := by
  have inside := ring.inside
  rw [beforeTail]
  split <;> omega

/-- Change the slot at the tail and go on to the next one. -/
def write (ring : Ring α) (change : α → α) : Ring α where
  slots := ring.slots.modify ring.tail change
  tail := ring.afterTail
  tail_lt := by
    rw [Array.size_modify]
    exact Nat.mod_lt _ ring.positive
  size_le := by
    rw [Array.size_modify]
    exact ring.limited

@[simp] theorem capacity_write (ring : Ring α) (change : α → α) :
    (ring.write change).capacity = ring.capacity :=
  Array.size_modify

/-- The ring with every slot seen in another way. -/
def map (view : α → β) (ring : Ring α) : Ring β where
  slots := ring.slots.map view
  tail := ring.tail
  tail_lt := by
    rw [Array.size_map]
    exact ring.inside
  size_le := by
    rw [Array.size_map]
    exact ring.limited

@[simp] theorem capacity_map (view : α → β) (ring : Ring α) :
    (ring.map view).capacity = ring.capacity :=
  Array.size_map

theorem map_filled (view : α → β) (capacity : Capacity) (slot : α) :
    (filled capacity slot).map view = filled capacity (view slot) := by
  simp [map, filled]

theorem map_write {view : α → β} {change : α → α} {seen : β → β}
    (agree : ∀ slot, view (change slot) = seen (view slot)) (ring : Ring α) :
    (ring.write change).map view = (ring.map view).write seen := by
  apply Ring.ext
  · apply Array.ext_getElem?
    intro index
    simp only [map, write, Array.getElem?_map, Array.getElem?_modify]
    split
    · cases ring.slots[index]? with
      | none => rfl
      | some slot => simp [agree]
    · rfl
  · simp [map, write, afterTail, capacity]

/-- All slots from the oldest to the newest. -/
def oldestFirst (ring : Ring α) : List α :=
  ring.slots.toList.drop ring.tail ++ ring.slots.toList.take ring.tail

def newestFirst (ring : Ring α) : List α := ring.oldestFirst.reverse

end Ring

end Retransmission
