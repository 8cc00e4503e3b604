namespace Retransmission

inductive CapacityError where
  | zero
  | tooLarge (capacity : Nat)
deriving DecidableEq, Repr

def CapacityError.message : CapacityError → String
  | .zero => "packet cache: capacity must be at least 1"
  | .tooLarge capacity =>
    s!"packet cache: capacity {capacity} exceeds the 16-bit slot index space"

namespace Capacity

/-- The most slots that 16-bit indices can tell apart. -/
def limit : Nat := 65536

/-- The capacity of a cache whose owner names none. -/
def standard : Nat := 512

/-- What is wrong with a number of slots, if anything is. -/
def fault? (slots : Nat) : Option CapacityError :=
  if slots = 0 then some .zero
  else if limit < slots then some (.tooLarge slots)
  else none

theorem fault?_eq_none_iff (slots : Nat) : fault? slots = none ↔ 1 ≤ slots ∧ slots ≤ limit := by
  unfold fault?
  split
  · simp; omega
  · split
    · simp; omega
    · simp; omega

end Capacity

/-- A number of slots that a ring can have. -/
structure Capacity where
  slots : Nat
  valid : Capacity.fault? slots = none
deriving DecidableEq, Repr

theorem Capacity.positive (capacity : Capacity) : 0 < capacity.slots :=
  ((fault?_eq_none_iff capacity.slots).mp capacity.valid).1

theorem Capacity.limited (capacity : Capacity) : capacity.slots ≤ limit :=
  ((fault?_eq_none_iff capacity.slots).mp capacity.valid).2

theorem Capacity.exists_slots_eq {slots : Nat} (valid : fault? slots = none) :
    ∃ capacity : Capacity, capacity.slots = slots :=
  ⟨⟨slots, valid⟩, rfl⟩

end Retransmission
