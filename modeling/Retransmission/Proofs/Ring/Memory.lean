import Retransmission.Proofs.Cache.Changes
import Retransmission.Proofs.Ring.Relocation
import Retransmission.Ring.Storage

/-! Cells against packets. A cell shows the packet written to it last and nothing
of what was in its buffer before, so every read from memory delivers what the ring
of packets does. -/

namespace Retransmission

namespace Cell

theorem copySlice_front (source target : ByteArray) {count : Nat}
    (enough : count ≤ source.size) :
    source.copySlice 0 target 0 count =
      source.extract 0 count ++ target.extract count target.size := by
  have copied : 0 + min count (source.data.size - 0) = count := by
    rw [ByteArray.size_data]
    omega
  rw [ByteArray.copySlice_eq_append, copied, Nat.zero_add, ByteArray.extract_same,
    ByteArray.empty_append, ByteArray.size_data]

/-- The packet that a reader sees in a cell. -/
def packet (cell : Cell) : Packet := ⟨cell.seq, cell.buffer.extract 0 cell.length⟩

theorem size_payload_packet (cell : Cell) : cell.packet.payload.size = cell.length := by
  have size := cell.size_buffer
  have length := cell.length_le
  simp only [packet, ByteArray.size_extract]
  omega

/-- Whatever the buffer held, a written cell shows the new packet and nothing else. -/
theorem packet_write (cell : Cell) (packet : Packet) :
    (cell.write packet).packet = packet.trim := by
  have front : min packet.payload.size Packet.payloadLimit =
      (packet.payload.extract 0 (min packet.payload.size Packet.payloadLimit)).size := by
    rw [ByteArray.size_extract]
    omega
  have whole : packet.payload.extract 0 (min packet.payload.size Packet.payloadLimit) =
      packet.payload.extract 0 Packet.payloadLimit := by
    have cut := packet.payload.extract_extract (i := 0) (j := packet.payload.size) (k := 0)
      (l := Packet.payloadLimit)
    rw [ByteArray.extract_zero_size, Nat.zero_add, Nat.zero_add, Nat.min_comm] at cut
    exact cut.symm
  simp only [Cell.packet, write, Packet.trim]
  rw [copySlice_front _ _ (Nat.min_le_left ..), ByteArray.extract_append_eq_left front, whole]
  rfl

theorem deliver_eq (cell : Cell) (out : ByteArray) :
    cell.deliver out = .ofPacket cell.packet out := by
  have size := cell.size_buffer
  have length := cell.length_le
  simp only [deliver, Delivery.ofPacket, size_payload_packet]
  rw [copySlice_front _ _ (by omega), packet, ByteArray.extract_extract, Nat.zero_add, Nat.zero_add,
    Nat.min_eq_left (Nat.min_le_left ..)]

end Cell

namespace Storage

/-- The packet that a reader sees in a slot. One that was never written looks like an empty
packet with the number 0. -/
def shown (slot : Slot) : Packet := slot.getD ⟨⟨0⟩, .empty⟩

instance : Inhabited Packet := ⟨shown none⟩

/-- Memory in which every reader sees the packets of a ring. -/
def Realizes (storage : Storage) (ring : Ring Slot) : Prop :=
  storage.map Cell.packet = ring.map shown

private theorem packet_blank : Cell.packet .blank = shown none := by
  simp [Cell.packet, Cell.blank, shown]

theorem realizes_blank (capacity : Capacity) : (blank capacity).Realizes (.empty capacity) := by
  rw [Realizes, blank, Ring.map_filled, Ring.empty, Ring.map_filled]
  exact congrArg (Ring.filled capacity) packet_blank

def change (storage : Storage) : Change → Storage
  | .keep => storage
  | .insert packet => storage.insert packet
  | .resize target => storage.resize target

/-- The memory of a cache that was new before a run of requests. -/
def after (cache : Cache) (requests : List Request) : Storage :=
  (cache.changes requests).foldl change (blank cache.ring.size)

theorem after_append_singleton (cache : Cache) (requests : List Request) (request : Request) :
    after cache (requests ++ [request]) =
      (after cache requests).change ((cache.run requests).change request) := by
  rw [after, cache.changes_append, List.foldl_append]
  rfl

namespace Realizes

variable {storage : Storage} {ring : Ring Slot}

theorem tail (realized : storage.Realizes ring) : storage.tail = ring.tail :=
  congrArg Ring.tail realized

theorem slots (realized : storage.Realizes ring) :
    storage.slots.map Cell.packet = ring.slots.map shown :=
  congrArg Ring.slots realized

theorem capacity (realized : storage.Realizes ring) : storage.capacity = ring.capacity := by
  have sizes := congrArg Ring.capacity realized
  rwa [Ring.capacity_map, Ring.capacity_map] at sizes

theorem size (realized : storage.Realizes ring) : storage.size = ring.size := by
  rw [Ring.size, Ring.size, Capacity.mk.injEq]
  exact realized.capacity

theorem insert (realized : storage.Realizes ring) (packet : Packet) :
    (storage.insert packet).Realizes (ring.insert packet.trim) := by
  have written : (storage.insert packet).map Cell.packet =
      (storage.map Cell.packet).write fun _ => packet.trim :=
    Ring.map_write (fun cell => cell.packet_write packet) storage
  rw [Realizes, written, realized, Ring.map_insert]
  rfl

theorem resize (realized : storage.Realizes ring) (target : Capacity) :
    Realizes (storage.resize target) (ring.resize target) := by
  rw [Realizes, Ring.map_resize _ _ packet_blank, realized]
  exact (ring.map_resize target rfl).symm

theorem change (realized : storage.Realizes ring) (change : Change) :
    (storage.change change).Realizes (ring.change change) := by
  cases change with
  | keep => exact realized
  | insert packet => exact realized.insert packet
  | resize target => exact realized.resize target

theorem changes (realized : storage.Realizes ring) (changes : List Change) :
    (changes.foldl Storage.change storage).Realizes (changes.foldl Ring.change ring) := by
  induction changes generalizing storage ring with
  | nil => exact realized
  | cons change rest ih => exact ih (realized.change change)

private theorem find?_shown (slots : List Slot) (seq : SeqNum) :
    (slots.map shown).find? (fun packet => packet.payload.size ≠ 0 ∧ packet.seq = seq) =
      slots.findSome? fun slot =>
        slot.filter fun packet => packet.payload.size ≠ 0 ∧ packet.seq = seq := by
  induction slots with
  | nil => rfl
  | cons slot rest ih =>
    rw [List.map_cons, List.findSome?_cons]
    cases slot with
    | none =>
      rw [List.find?_cons_of_neg (by simp [shown]), ih]
      rfl
    | some packet =>
      by_cases sought : packet.payload.size ≠ 0 ∧ packet.seq = seq
      · rw [List.find?_cons_of_pos (by simpa [shown] using sought),
          Option.filter_some_pos (by simpa using sought)]
        rfl
      · rw [List.find?_cons_of_neg (by simpa [shown] using sought), ih,
          Option.filter_some_neg (by simpa using sought)]

theorem read (realized : storage.Realizes ring) (seq : SeqNum) (out : ByteArray) :
    storage.read seq out = .ofFound (ring.find? seq) out := by
  have found : (storage.slots.find? fun cell => cell.length ≠ 0 ∧ cell.seq = seq).map Cell.packet =
      ring.find? seq := by
    have sought : (fun cell : Cell => decide (cell.length ≠ 0 ∧ cell.seq = seq)) =
        (fun packet => decide (packet.payload.size ≠ 0 ∧ packet.seq = seq)) ∘ Cell.packet := by
      funext cell
      simp only [Function.comp_apply, Cell.size_payload_packet]
      rfl
    rw [sought, ← Array.find?_map, realized.slots, ← Array.find?_toList, Array.toList_map,
      find?_shown, Ring.find?, Array.findSome?_toList]
  rw [Storage.read, ← found]
  cases storage.slots.find? fun cell => cell.length ≠ 0 ∧ cell.seq = seq with
  | none => rfl
  | some cell => exact cell.deliver_eq out

private theorem ofPacket_shown (slot : Slot) (out : ByteArray) :
    Delivery.ofPacket (shown slot) out = .ofFound slot out := by
  cases slot with
  | none => simp [Delivery.ofPacket, Delivery.ofFound, shown]
  | some packet => rfl

/-- A slot outside the ring is in neither, and inside it both deliver the same. -/
private theorem look (realized : storage.Realizes ring) (index : Nat) (out : ByteArray) :
    (storage.slots[index]? = none ∧ ring.slots[index]? = none) ∨
      ∃ cell slot, storage.slots[index]? = some cell ∧ ring.slots[index]? = some slot ∧
        cell.seq = (shown slot).seq ∧ cell.deliver out = .ofFound slot out := by
  have same : storage.slots[index]?.map Cell.packet = ring.slots[index]?.map shown := by
    rw [← Array.getElem?_map, realized.slots, Array.getElem?_map]
  cases held : ring.slots[index]? with
  | none =>
    rw [held, Option.map_none, Option.map_eq_none_iff] at same
    exact .inl ⟨same, rfl⟩
  | some slot =>
    rw [held, Option.map_some, Option.map_eq_some_iff] at same
    obtain ⟨cell, found, shows⟩ := same
    refine .inr ⟨cell, slot, found, rfl, congrArg Packet.seq shows, ?_⟩
    rw [cell.deliver_eq, shows, ofPacket_shown]

theorem readAt (realized : storage.Realizes ring) (seq : SeqNum) (index : Nat) (out : ByteArray) :
    storage.readAt seq index out = .ofFound (ring.at? seq index) out := by
  rw [Storage.readAt, Ring.at?]
  rcases realized.look index out with
    ⟨absent, outside⟩ | ⟨cell, slot, found, held, number, delivered⟩
  · simp [absent, outside, Delivery.ofFound]
  · simp only [found, held, Option.join_some, number, delivered]
    cases slot with
    | none => simp [Delivery.ofFound]
    | some packet =>
      by_cases same : packet.seq = seq
      · rw [Option.filter_some_pos (by simpa using same)]
        exact if_pos same
      · rw [Option.filter_some_neg (by simpa using same)]
        exact if_neg same

theorem readNewest (realized : storage.Realizes ring) (out : ByteArray) :
    storage.readNewest out = .ofFound ring.newest? out := by
  have place : storage.beforeTail = ring.beforeTail := by
    rw [Ring.beforeTail, Ring.beforeTail, realized.tail, realized.capacity]
  rw [Storage.readNewest, place, Ring.newest?]
  rcases realized.look ring.beforeTail out with
    ⟨absent, outside⟩ | ⟨cell, slot, found, held, _, delivered⟩
  · simp [absent, outside, Delivery.ofFound]
  · simp only [found, held, Option.join_some, delivered]

end Realizes

theorem realizes_run {capacity : Nat} {cache : Cache}
    (created : Cache.create capacity = .ok cache) (requests : List Request) :
    (after cache requests).Realizes (cache.run requests).ring := by
  obtain ⟨valid, rfl⟩ := Cache.create_eq_ok_iff.mp created
  have room : (Ring.empty ⟨capacity, valid⟩).size = ⟨capacity, valid⟩ := by
    rw [Ring.size, Capacity.mk.injEq]
    exact Ring.capacity_empty _
  rw [after, Cache.ring_run, Cache.new, room]
  exact (realizes_blank ⟨capacity, valid⟩).changes _

end Storage

end Retransmission
