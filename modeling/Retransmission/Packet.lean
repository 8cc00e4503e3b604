import Retransmission.SeqNum

namespace Retransmission

-- Other libraries bring an instance of their own. Declared here, the core one
-- compares payloads whatever a module imports beside.
instance decEqPayload : DecidableEq ByteArray := ByteArray.instDecidableEq

structure Packet where
  seq : SeqNum
  payload : ByteArray
deriving DecidableEq

namespace Packet

/-- The longest payload that is kept, in bytes. -/
def payloadLimit : Nat := 1500

/-- Keep a payload under its number. Bytes past the limit are dropped. -/
def ofPayload (seq : SeqNum) (payload : ByteArray) : Packet :=
  ⟨seq, payload.extract 0 payloadLimit⟩

theorem size_payload_ofPayload (seq : SeqNum) (payload : ByteArray) :
    (ofPayload seq payload).payload.size = min payload.size payloadLimit := by
  simp [ofPayload, ByteArray.size_extract, Nat.min_comm]

end Packet

/-- The outcome of a read: how many bytes were copied to the front of the
reader's buffer, and the whole buffer afterwards. -/
structure Delivery where
  count : Nat
  buffer : ByteArray
deriving DecidableEq

namespace Delivery

/-- Copy as much of the payload as the buffer holds. The rest of the buffer
stays as it is. -/
def ofPacket (packet : Packet) (buffer : ByteArray) : Delivery :=
  let count := min packet.payload.size buffer.size
  ⟨count, packet.payload.extract 0 count ++ buffer.extract count buffer.size⟩

/-- A packet that is not found leaves the buffer alone. -/
def ofFound (found : Option Packet) (buffer : ByteArray) : Delivery :=
  match found with
  | some packet => ofPacket packet buffer
  | none => ⟨0, buffer⟩

theorem size_buffer_ofFound (found : Option Packet) (buffer : ByteArray) :
    (ofFound found buffer).buffer.size = buffer.size := by
  cases found with
  | none => rfl
  | some packet =>
    simp only [ofFound, ofPacket, ByteArray.size_append, ByteArray.size_extract]
    omega

end Delivery

end Retransmission
