import Retransmission.Proofs.Ring.Relocation
import Retransmission.Ring.Packets

namespace Retransmission.Ring

theorem length_newestFirst (ring : Ring α) : ring.newestFirst.length = ring.capacity := by
  rw [newestFirst, List.length_reverse, length_oldestFirst]

/-- The order starts at the slot before the tail and goes backwards round the ring. -/
theorem getElem?_newestFirst (ring : Ring α) {steps : Nat} (within : steps < ring.capacity) :
    ring.newestFirst[steps]? =
      ring.slots[(ring.tail + ring.capacity - 1 - steps) % ring.capacity]? := by
  have inside := ring.inside
  have older : (ring.slots.toList.drop ring.tail).length = ring.capacity - ring.tail := by
    rw [List.length_drop, Array.length_toList, capacity]
  rw [newestFirst, List.getElem?_reverse (by rwa [length_oldestFirst]), length_oldestFirst,
    oldestFirst, List.getElem?_append, older]
  by_cases newer : steps < ring.tail
  · have place : (ring.tail + ring.capacity - 1 - steps) % ring.capacity =
        ring.capacity - 1 - steps - (ring.capacity - ring.tail) := by
      have turn : ring.tail + ring.capacity - 1 - steps =
          ring.capacity - 1 - steps - (ring.capacity - ring.tail) + ring.capacity := by omega
      rw [turn, Nat.add_mod_right]
      exact Nat.mod_eq_of_lt (by omega)
    rw [if_neg (by omega), List.getElem?_take_of_lt (by omega), Array.getElem?_toList, place]
  · have place : (ring.tail + ring.capacity - 1 - steps) % ring.capacity =
        ring.tail + (ring.capacity - 1 - steps) := by
      have sum : ring.tail + ring.capacity - 1 - steps =
          ring.tail + (ring.capacity - 1 - steps) := by omega
      rw [sum]
      exact Nat.mod_eq_of_lt (by omega)
    rw [if_pos (by omega), List.getElem?_drop, Array.getElem?_toList, place]

theorem newestFirst_filled (capacity : Capacity) (slot : α) :
    (filled capacity slot).newestFirst = List.replicate capacity.slots slot := by
  simp [newestFirst, oldestFirst, filled]

theorem newestFirst_insert (ring : Ring Slot) (packet : Packet) :
    (ring.insert packet).newestFirst = some packet :: ring.newestFirst.dropLast := by
  obtain ⟨⟨slots⟩, tail, inside, limited⟩ := ring
  rw [List.size_toArray] at inside
  obtain ⟨front, oldest, back, rfl, rfl⟩ : ∃ front oldest back,
      slots = front ++ oldest :: back ∧ tail = front.length :=
    ⟨slots.take tail, slots[tail], slots.drop (tail + 1), by simp, by simp; omega⟩
  have written : (front ++ oldest :: back).modify front.length (fun _ => some packet) =
      front ++ some packet :: back := by simp [List.modify_eq_take_drop]
  cases back with
  | nil => simp [insert, write, written, afterTail, capacity, newestFirst, oldestFirst]
  | cons next rest =>
    have turn : (front.length + 1) % (front.length + (rest.length + 1 + 1)) = front.length + 1 :=
      Nat.mod_eq_of_lt (by omega)
    simp [insert, write, written, afterTail, capacity, newestFirst, oldestFirst, turn,
      List.drop_append, List.take_append, List.take_of_length_le, List.drop_eq_nil_of_le]

/-- A resize keeps the newest slots in order, and opens new ones past the oldest. -/
theorem newestFirst_resize [Inhabited α] (ring : Ring α) (target : Capacity) :
    (ring.resize target).newestFirst = ring.newestFirst.take target.slots ++
      List.replicate (target.slots - ring.capacity) default := by
  have kept : min (ring.capacity - (ring.capacity - target.slots)) ring.newestFirst.length =
      min target.slots ring.newestFirst.length := by
    rw [length_newestFirst]
    omega
  rw [newestFirst, oldestFirst_resize, List.reverse_append, List.reverse_replicate,
    List.reverse_drop, length_oldestFirst, ← newestFirst]
  congr 1
  exact List.take_eq_take_iff.mpr kept

end Retransmission.Ring
