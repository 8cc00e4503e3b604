import Retransmission.Machine.Memory
import Retransmission.Proofs.Ring.Memory

namespace Retransmission

namespace Machine

variable {condition : Prop} [Decidable condition]

theorem check_pos (good : condition) (value : α) : check condition value = some value :=
  if_pos good

theorem narrow?_of_lt {number : Nat} (small : number < 65536) :
    narrow? number = some (.ofNat number) :=
  check_pos small _

/-- Sums of two indices are far below the width of an address. -/
theorem add?_of_le {left right : Nat} (leftFits : left ≤ 65536) (rightFits : right ≤ 65536) :
    add? UInt64.size left right = some (left + right) :=
  check_pos (show left + right < 18446744073709551616 by omega) _

theorem sub?_of_le [LE α] [DecidableLE α] [Sub α] {left right : α} (enough : right ≤ left) :
    sub? left right = some (left - right) :=
  check_pos enough _

theorem slice?_of_le (items : Array α) {start stop : Nat} (forwards : start ≤ stop)
    (enough : stop ≤ items.size) : slice? items start stop = some (items.extract start stop) :=
  check_pos ⟨forwards, enough⟩ _

theorem overwrite?_front (items source : Array α) (enough : source.size ≤ items.size) :
    overwrite? items 0 source.size source =
      some (source ++ items.extract source.size items.size) := by
  rw [overwrite?, check_pos (by simpa using enough)]
  simp

theorem copyFront?_eq (source target : ByteArray) {count : Nat} (enough : count ≤ source.size)
    (room : count ≤ target.size) :
    copyFront? source target count = some (source.copySlice 0 target 0 count) := by
  have size : (source.data.extract 0 count).size = count := by
    rw [Array.size_extract, Nat.sub_zero]
    exact Nat.min_eq_left enough
  have filled := overwrite?_front target.data (source.data.extract 0 count) (by rwa [size])
  have copied : source.copySlice 0 target 0 count =
      ⟨source.data.extract 0 count ++ target.data.extract count target.data.size⟩ := by
    rw [Cell.copySlice_front source target enough]
    apply ByteArray.ext
    simp only [ByteArray.data_append, ByteArray.data_extract]
    rfl
  rw [size] at filled
  rw [copyFront?, slice?_of_le _ (Nat.zero_le _) enough, copied]
  simp only [Option.bind_eq_bind, Option.bind_some, filled]
  rfl

theorem overwrite?_end (front source : Array α) (item : α) {start spare : Nat}
    (past : front.size ≤ start) (fills : start + source.size = front.size + spare) :
    overwrite? (front ++ .replicate spare item) start (front.size + spare) source =
      some (front ++ .replicate (start - front.size) item ++ source) := by
  have kept : (front ++ .replicate spare item).extract 0 start =
      front ++ .replicate (start - front.size) item := by
    rw [Array.extract_append, Array.extract_replicate, Array.extract_eq_self_of_le past]
    congr 2
    omega
  rw [overwrite?, check_pos (by simp; omega), kept, Array.extract_empty_of_stop_le_start (by simp),
    Array.append_empty]

namespace Memory

section Resize

variable {entries : Array Entry} {tail : UInt16} {target : Nat}
  (inside : tail.toNat < entries.size)
include inside

private theorem overwrite?_newer (enough : tail.toNat ≤ target) :
    overwrite? (.replicate target Entry.blank) 0 tail.toNat (entries.extract 0 tail.toNat) =
      some (entries.extract 0 tail.toNat ++ .replicate (target - tail.toNat) .blank) := by
  have size : (entries.extract 0 tail.toNat).size = tail.toNat := by simp; omega
  have front := overwrite?_front (.replicate target Entry.blank) (entries.extract 0 tail.toNat)
    (by simp; omega)
  simpa only [size, Array.size_replicate, Array.extract_replicate, Nat.min_self] using front

/-- The slots from `start` on, of those at the tail and after, go to the end. -/
private theorem overwrite?_older {start place : Nat} (enough : tail.toNat ≤ target)
    (past : tail.toNat ≤ place) (fills : place + (entries.size - start) = target) :
    overwrite? (entries.extract 0 tail.toNat ++ .replicate (target - tail.toNat) .blank) place
        target (entries.extract start entries.size) =
      some (entries.extract 0 tail.toNat ++ .replicate (place - tail.toNat) .blank ++
        entries.extract start entries.size) := by
  have size : (entries.extract 0 tail.toNat).size = tail.toNat := by simp; omega
  have stop : tail.toNat + (target - tail.toNat) = target := by omega
  have rear : place + (entries.extract start entries.size).size =
      (entries.extract 0 tail.toNat).size + (target - tail.toNat) := by
    rw [Array.size_extract, Nat.min_self, size]
    omega
  simpa only [size, stop] using
    overwrite?_end (entries.extract 0 tail.toNat) _ Entry.blank (by rwa [size]) rear

omit inside in
/-- A memory that grows from a tail at slot 0 keeps all slots in one block. -/
private theorem resize?_grow_start (bigger : entries.size < target) (atStart : tail.toNat = 0)
    (fits : target ≤ 65536) :
    resize? ⟨entries, tail⟩ target =
      some ⟨entries ++ .replicate (target - entries.size) .blank, .ofNat entries.size⟩ := by
  have copied := overwrite?_front (.replicate target Entry.blank) entries
    (by simpa using Nat.le_of_lt bigger)
  have moved := narrow?_of_lt (Nat.lt_of_lt_of_le bigger fits)
  simp [resize?, Nat.ne_of_gt bigger, bigger, atStart, copied, moved]

/-- A memory that grows has its new slots between two copied blocks. -/
private theorem resize?_grow (bigger : entries.size < target) (used : tail.toNat ≠ 0)
    (fits : target ≤ 65536) :
    resize? ⟨entries, tail⟩ target =
      some ⟨entries.extract 0 tail.toNat ++ .replicate (target - entries.size) .blank ++
        entries.extract tail.toNat entries.size, tail⟩ := by
  have early : tail.toNat ≤ target := by omega
  have newer := slice?_of_le entries (Nat.zero_le tail.toNat) (Nat.le_of_lt inside)
  have sum := add?_of_le (show tail.toNat ≤ 65536 by omega) fits
  have start := sub?_of_le (show entries.size ≤ tail.toNat + target by omega)
  have older := slice?_of_le entries (Nat.le_of_lt inside) (Nat.le_refl _)
  have spare : tail.toNat + target - entries.size - tail.toNat = target - entries.size := by omega
  have copied := overwrite?_older inside early
    (show tail.toNat ≤ tail.toNat + target - entries.size by omega)
    (show _ + (entries.size - tail.toNat) = target by omega)
  simp [resize?, Nat.ne_of_gt bigger, bigger, used, newer, overwrite?_newer inside early, sum,
    start, older, copied, spare]

/-- A memory that ends past the tail gives up the oldest slots. -/
private theorem resize?_shrink (smaller : target < entries.size) (room : tail.toNat < target)
    (limited : entries.size ≤ 65536) :
    resize? ⟨entries, tail⟩ target =
      some ⟨entries.extract 0 tail.toNat ++
        entries.extract (tail.toNat + (entries.size - target)) entries.size, tail⟩ := by
  have fewer := Nat.not_lt.mpr (Nat.le_of_lt smaller)
  have early := Nat.le_of_lt room
  have newer := slice?_of_le entries (Nat.zero_le tail.toNat) (Nat.le_of_lt inside)
  have sum := add?_of_le (show tail.toNat ≤ 65536 by omega) limited
  have start := sub?_of_le (show target ≤ tail.toNat + entries.size by omega)
  have same : tail.toNat + entries.size - target = tail.toNat + (entries.size - target) := by omega
  have older := slice?_of_le entries
    (show tail.toNat + (entries.size - target) ≤ entries.size by omega) (Nat.le_refl _)
  have copied := overwrite?_older inside early (Nat.le_refl tail.toNat)
    (show tail.toNat + (entries.size - (tail.toNat + (entries.size - target))) = target by omega)
  simp [resize?, Nat.ne_of_lt smaller, fewer, room, newer, overwrite?_newer inside early, sum,
    start, same, older, copied]

/-- A memory that ends at the tail or before keeps the newest slots alone. -/
private theorem resize?_shrink_front (smaller : target < entries.size)
    (full : target ≤ tail.toNat) :
    resize? ⟨entries, tail⟩ target =
      some ⟨entries.extract (tail.toNat - target) tail.toNat, 0⟩ := by
  have fewer := Nat.not_lt.mpr (Nat.le_of_lt smaller)
  have start := sub?_of_le full
  have newest := slice?_of_le entries (Nat.sub_le tail.toNat target) (Nat.le_of_lt inside)
  have size : (entries.extract (tail.toNat - target) tail.toNat).size = target := by
    simp
    omega
  have copied := overwrite?_front (.replicate target Entry.blank)
    (entries.extract (tail.toNat - target) tail.toNat) (by simp [size])
  rw [size] at copied
  simp [resize?, Nat.ne_of_lt smaller, fewer, Nat.not_lt.mpr full, start, newest, copied]

/-- The blocks that a resize copies are those of a ring, and each of them fits where it
goes. -/
theorem resize?_eq (limited : entries.size ≤ 65536) (fits : target ≤ 65536) :
    resize? ⟨entries, tail⟩ target =
      some ⟨(relocate .blank entries tail.toNat target).1,
        .ofNat (relocate .blank entries tail.toNat target).2⟩ := by
  have word : UInt16.ofNat tail.toNat = tail := UInt16.ofNat_toNat
  rcases Nat.lt_trichotomy target entries.size with smaller | rfl | bigger
  · have fewer := Nat.not_lt.mpr (Nat.le_of_lt smaller)
    by_cases room : tail.toNat < target
    · rw [resize?_shrink inside smaller room limited]
      simp [relocate, Nat.ne_of_lt smaller, fewer, room, word]
    · rw [resize?_shrink_front inside smaller (Nat.not_lt.mp room)]
      simp [relocate, Nat.ne_of_lt smaller, fewer, room]
  · simp [resize?, relocate, word]
  · by_cases atStart : tail.toNat = 0
    · rw [resize?_grow_start bigger atStart fits]
      simp [relocate, Nat.ne_of_gt bigger, bigger, atStart]
    · rw [resize?_grow inside bigger atStart fits]
      simp [relocate, Nat.ne_of_gt bigger, bigger, atStart, word]

end Resize

end Memory

end Machine

namespace Cell

/-- A cell in the memory of a machine. -/
def entry (cell : Cell) : Machine.Entry := ⟨cell.seq, .ofNat cell.length, cell.buffer⟩

@[simp] theorem toNat_length_entry (cell : Cell) : cell.entry.length.toNat = cell.length :=
  UInt16.toNat_ofNat_of_lt' (Nat.lt_of_le_of_lt cell.length_le (by decide))

theorem copyTo?_entry (cell : Cell) (out : ByteArray) :
    cell.entry.copyTo? out = some (cell.deliver out) := by
  have size := cell.size_buffer
  have length := cell.length_le
  have copied := Machine.copyFront?_eq cell.buffer out
    (show min cell.length out.size ≤ cell.buffer.size by omega) (Nat.min_le_right ..)
  simp only [Machine.Entry.copyTo?, toNat_length_entry]
  rw [entry, copied]
  rfl

end Cell

namespace Storage

def image (storage : Storage) : Machine.Memory :=
  ⟨storage.slots.map Cell.entry, .ofNat storage.tail⟩

@[simp] theorem size_entries_image (storage : Storage) :
    storage.image.entries.size = storage.capacity :=
  Array.size_map

theorem image_blank (capacity : Capacity) : (blank capacity).image = .blank capacity.slots := by
  simp only [image, blank, Ring.filled, Array.map_replicate]
  rfl

theorem read?_image (storage : Storage) (seq : SeqNum) (out : ByteArray) :
    storage.image.read? seq out = some (storage.read seq out) := by
  have empty (cell : Cell) : cell.entry.length = 0 ↔ cell.length = 0 := by
    rw [← UInt16.toNat_inj, cell.toNat_length_entry]
    rfl
  have sought : (fun entry : Machine.Entry => decide (entry.length ≠ 0 ∧ entry.seq = seq)) ∘
      Cell.entry = fun cell => decide (cell.length ≠ 0 ∧ cell.seq = seq) := by
    funext cell
    simp only [Function.comp_apply, ne_eq, empty]
    rfl
  rw [Machine.Memory.read?, image, Array.find?_map, sought, read]
  cases storage.slots.find? fun cell => cell.length ≠ 0 ∧ cell.seq = seq with
  | none => rfl
  | some cell => exact cell.copyTo?_entry out

theorem readAt?_image (storage : Storage) (seq : SeqNum) (index : Nat) (out : ByteArray) :
    storage.image.readAt? seq index out = some (storage.readAt seq index out) := by
  rw [Machine.Memory.readAt?, image, Array.getElem?_map, readAt]
  cases storage.slots[index]? with
  | none => rfl
  | some cell =>
    by_cases same : cell.seq = seq
    · simpa [Cell.entry, same] using cell.copyTo?_entry out
    · simp [Cell.entry, same]

theorem toNat_tail_image (storage : Storage) : storage.image.tail.toNat = storage.tail :=
  UInt16.toNat_ofNat_of_lt' (Nat.lt_of_lt_of_le storage.inside storage.limited)

theorem readNewest?_image (storage : Storage) (out : ByteArray) :
    storage.image.readNewest? out = some (storage.readNewest out) := by
  have start : storage.image.tail = 0 ↔ storage.tail = 0 := by
    rw [← UInt16.toNat_inj, storage.toNat_tail_image]
    rfl
  have before : storage.image.beforeTail? = some storage.beforeTail := by
    have inside := storage.inside
    simp only [Machine.Memory.beforeTail?, start, size_entries_image, storage.toNat_tail_image]
    rw [Ring.beforeTail]
    split
    · exact Machine.sub?_of_le (by omega)
    · exact Machine.sub?_of_le (by omega)
  simp only [Machine.Memory.readNewest?, before, readNewest, Option.bind_eq_bind, Option.bind_some]
  rw [image, Array.getElem?_map, Array.getElem?_eq_getElem storage.beforeTail_lt]
  exact Cell.copyTo?_entry _ out

theorem image_insert {storage : Storage} {cell : Cell}
    (held : storage.slots[storage.tail]? = some cell) (packet : Packet) :
    (storage.insert packet).image =
      ⟨storage.image.entries.setIfInBounds storage.tail (cell.write packet).entry,
        .ofNat ((storage.tail + 1) % storage.capacity)⟩ := by
  have inside : storage.tail < storage.slots.size := storage.inside
  refine congrArg (Machine.Memory.mk · _) (Array.ext_getElem? fun index => ?_)
  simp only [insert, Ring.write, image, Array.getElem?_map, Array.getElem?_modify,
    Array.getElem?_setIfInBounds, Array.size_map]
  by_cases same : storage.tail = index
  · rw [← same, if_pos rfl, if_pos rfl, held, if_pos inside]
    rfl
  · rw [if_neg same, if_neg same]

/-- The packet goes into the slot at the tail, whose buffer has room for it. -/
theorem insert?_image (storage : Storage) (packet : Packet) :
    storage.image.insert? packet = some (.ofNat storage.tail, (storage.insert packet).image) := by
  have inside := storage.inside
  have limited : storage.capacity ≤ 65536 := storage.limited
  obtain ⟨cell, held⟩ : ∃ cell, storage.slots[storage.tail]? = some cell :=
    ⟨_, Array.getElem?_eq_getElem inside⟩
  have entry : storage.image.entries[storage.tail]? = some cell.entry := by
    rw [image, Array.getElem?_map, held, Option.map_some]
  have copied := Machine.copyFront?_eq packet.payload cell.entry.buffer (Nat.min_le_left ..)
    (show min packet.payload.size Packet.payloadLimit ≤ cell.buffer.size by
      rw [cell.size_buffer]
      exact Nat.min_le_right ..)
  have length := Machine.narrow?_of_lt (Nat.lt_of_le_of_lt
    (Nat.min_le_right packet.payload.size Packet.payloadLimit) (by decide))
  have sum : Machine.add? UInt64.size storage.tail 1 = some (storage.tail + 1) :=
    Machine.add?_of_le (by omega) (by omega)
  have turn : Machine.mod? (storage.tail + 1) storage.capacity =
      some ((storage.tail + 1) % storage.capacity) :=
    Machine.check_pos (by omega) _
  have after := Machine.narrow?_of_lt
    (Nat.lt_of_lt_of_le (Nat.mod_lt (storage.tail + 1) storage.positive) limited)
  have index := Machine.narrow?_of_lt (Nat.lt_of_lt_of_le inside limited)
  simp only [Machine.Memory.insert?, storage.toNat_tail_image, size_entries_image, entry, copied,
    length, sum, turn, after, index, Option.bind_eq_bind, Option.bind_some, image_insert held]
  rfl

theorem resize?_image (storage : Storage) (target : Capacity) :
    storage.image.resize? target.slots = some (image (storage.resize target)) := by
  have tail : (UInt16.ofNat storage.tail).toNat = storage.tail := storage.toNat_tail_image
  have size : (storage.slots.map Cell.entry).size = storage.capacity := Array.size_map
  have moved : relocate .blank (storage.slots.map Cell.entry) storage.tail target.slots = _ :=
    map_relocate Cell.entry .blank storage.slots storage.tail target.slots
  have resized : storage.image.resize? target.slots = _ :=
    Machine.Memory.resize?_eq (by rw [tail, size]; exact storage.inside)
      (by rw [size]; exact storage.limited) target.limited
  rw [resized, tail, moved]
  rfl

end Storage

end Retransmission
