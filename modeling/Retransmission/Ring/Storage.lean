import Retransmission.Packet
import Retransmission.Ring.Resize

/-! A ring in memory. Each slot is a cell with a buffer of fixed size, and a packet
is written over whatever the buffer held before. -/

namespace Retransmission

/-- A slot in memory. The first `length` bytes of the buffer belong to the packet,
and those after them are left over from earlier packets. -/
structure Cell where
  seq : SeqNum
  length : Nat
  buffer : ByteArray
  size_buffer : buffer.size = Packet.payloadLimit
  length_le : length ≤ Packet.payloadLimit

namespace Cell

/-- A cell that was never written has the number 0 and no bytes. -/
def blank : Cell where
  seq := ⟨0⟩
  length := 0
  buffer := ⟨.replicate Packet.payloadLimit 0⟩
  size_buffer := by simp [ByteArray.size]
  length_le := Nat.zero_le _

/-- Write a packet over the front of the buffer. Bytes past the limit are dropped. -/
def write (cell : Cell) (packet : Packet) : Cell where
  seq := packet.seq
  length := min packet.payload.size Packet.payloadLimit
  buffer := packet.payload.copySlice 0 cell.buffer 0 (min packet.payload.size Packet.payloadLimit)
  size_buffer := by
    have size := cell.size_buffer
    simp only [ByteArray.copySlice_eq_append, ByteArray.size_append, ByteArray.size_extract,
      ByteArray.size_data]
    omega
  length_le := Nat.min_le_right ..

/-- Copy as much of the packet as a reader's buffer holds to its front. -/
def deliver (cell : Cell) (out : ByteArray) : Delivery :=
  let count := min cell.length out.size
  ⟨count, cell.buffer.copySlice 0 out 0 count⟩

instance : Inhabited Cell := ⟨blank⟩

end Cell

/-- The cells of a ring. -/
abbrev Storage := Ring Cell

namespace Storage

def blank (capacity : Capacity) : Storage := .filled capacity .blank

def insert (storage : Storage) (packet : Packet) : Storage :=
  storage.write fun cell => cell.write packet

/-- Read the first cell that has the number and is not empty. -/
def read (storage : Storage) (seq : SeqNum) (out : ByteArray) : Delivery :=
  match storage.slots.find? fun cell => cell.length ≠ 0 ∧ cell.seq = seq with
  | some cell => cell.deliver out
  | none => ⟨0, out⟩

/-- Read a cell, if it still has the number. -/
def readAt (storage : Storage) (seq : SeqNum) (index : Nat) (out : ByteArray) : Delivery :=
  match storage.slots[index]? with
  | some cell => if cell.seq = seq then cell.deliver out else ⟨0, out⟩
  | none => ⟨0, out⟩

def readNewest (storage : Storage) (out : ByteArray) : Delivery :=
  match storage.slots[storage.beforeTail]? with
  | some cell => cell.deliver out
  | none => ⟨0, out⟩

end Storage

end Retransmission
