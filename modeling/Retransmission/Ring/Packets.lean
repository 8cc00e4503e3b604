import Retransmission.Packet
import Retransmission.Ring.Basic

namespace Retransmission

/-- A place for a packet. One that was never written, or that a resize left unused, holds
nothing. -/
abbrev Slot := Option Packet

namespace Ring

def empty (capacity : Capacity) : Ring Slot := filled capacity none

/-- Write a packet at the tail, in place of the oldest one. -/
def insert (ring : Ring Slot) (packet : Packet) : Ring Slot := ring.write fun _ => some packet

/-- The first packet by slot index that has the number and is not empty. -/
def find? (ring : Ring Slot) (seq : SeqNum) : Option Packet :=
  ring.slots.findSome? fun slot =>
    slot.filter fun packet => packet.payload.size ≠ 0 ∧ packet.seq = seq

/-- The packet of a slot, if it still has the number. -/
def at? (ring : Ring Slot) (seq : SeqNum) (index : Nat) : Option Packet :=
  ring.slots[index]?.join.filter fun packet => packet.seq = seq

def newest? (ring : Ring Slot) : Option Packet :=
  ring.slots[ring.beforeTail]?.join

@[simp] theorem capacity_empty (capacity : Capacity) : (empty capacity).capacity = capacity.slots :=
  Array.size_replicate

@[simp] theorem capacity_insert (ring : Ring Slot) (packet : Packet) :
    (ring.insert packet).capacity = ring.capacity :=
  ring.capacity_write _

theorem map_insert (view : Slot → β) (ring : Ring Slot) (packet : Packet) :
    (ring.insert packet).map view = (ring.map view).write fun _ => view (some packet) :=
  @map_write _ _ view (fun _ => some packet) (fun _ => view (some packet)) (fun _ => rfl) ring

end Ring

end Retransmission
