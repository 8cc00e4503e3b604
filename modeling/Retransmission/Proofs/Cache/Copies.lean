import Retransmission.Proofs.Cache.Reading

namespace Retransmission

/-- The packets that a number may stand for, in the order of the list. -/
def Packet.copies (seq : SeqNum) (packets : List Packet) : List Packet :=
  packets.filter fun packet => packet.payload.size ≠ 0 ∧ packet.seq = seq

/-- The packet that a number stands for in a ring: the oldest one before the tail, or else the
oldest of all. -/
def Packet.lowest? (seq : SeqNum) (tail : Nat) (packets : List Packet) : Option Packet :=
  (copies seq (packets.take tail)).getLast?.or (copies seq packets).getLast?

theorem Packet.size_payload_trim_ne_zero_iff (packet : Packet) :
    packet.trim.payload.size ≠ 0 ↔ packet.payload.size ≠ 0 := by
  refine ⟨?_, packet.trim_nonempty⟩
  intro kept empty
  exact kept (by rw [size_payload_trim, empty, Nat.zero_min])

theorem Packet.copies_map_trim (seq : SeqNum) (packets : List Packet) :
    copies seq (packets.map trim) = (copies seq packets).map trim := by
  rw [copies, List.filter_map]
  refine congrArg (List.map trim) (List.filter_congr ?_)
  intro packet _
  simp only [Function.comp_apply, size_payload_trim_ne_zero_iff]
  rfl

/-- Only packets with the same bytes are delivered alike into every buffer. -/
theorem Delivery.payload_eq_of_ofPacket {packet other : Packet}
    (same : ∀ out, ofPacket packet out = ofPacket other out) : packet.payload = other.payload := by
  have whole (packet : Packet) (out : ByteArray) (fits : packet.payload.size = out.size) :
      ofPacket packet out = ⟨packet.payload.size, packet.payload⟩ := by
    simp only [ofPacket, fits, Nat.min_self, ByteArray.extract_same, ByteArray.append_empty]
    rw [← fits, ByteArray.extract_zero_size]
  have shorter : packet.payload.size ≤ other.payload.size := by
    have count := congrArg Delivery.count (same packet.payload)
    simp only [ofPacket] at count
    omega
  have longer : other.payload.size ≤ packet.payload.size := by
    have count := congrArg Delivery.count (same other.payload)
    simp only [ofPacket] at count
    omega
  have delivered := same packet.payload
  rw [whole packet _ rfl, whole other _ (Nat.le_antisymm longer shorter)] at delivered
  exact congrArg Delivery.buffer delivered

/-- A scan in slot order meets the slots before the tail first, and in either block the
oldest ones first. -/
theorem Ring.toList_slots (ring : Ring α) :
    ring.slots.toList =
      (ring.newestFirst.take ring.tail).reverse ++ (ring.newestFirst.drop ring.tail).reverse := by
  have length : (ring.slots.toList.take ring.tail).reverse.length = ring.tail := by
    rw [List.length_reverse, List.length_take_of_le]
    exact Nat.le_of_lt ring.inside
  rw [newestFirst, oldestFirst, List.reverse_append, List.take_left' length, List.drop_left' length,
    List.reverse_reverse, List.reverse_reverse, List.take_append_drop]

theorem Ring.find?_eq_lowest? (ring : Ring Slot) (seq : SeqNum) :
    ring.find? seq =
      (Packet.copies seq ((ring.newestFirst.take ring.tail).filterMap id)).getLast?.or
        (Packet.copies seq (ring.newestFirst.filterMap id)).getLast? := by
  have scan (slots : List (Option Packet)) :
      slots.reverse.findSome? (fun slot =>
          slot.filter fun packet => packet.payload.size ≠ 0 ∧ packet.seq = seq) =
        (Packet.copies seq (slots.filterMap id)).getLast? := by
    rw [← List.head?_filterMap, List.filterMap_reverse, List.head?_reverse, Packet.copies,
      List.filter_filterMap]
    rfl
  have blocks : Packet.copies seq (ring.newestFirst.filterMap id) =
      Packet.copies seq ((ring.newestFirst.take ring.tail).filterMap id) ++
        Packet.copies seq ((ring.newestFirst.drop ring.tail).filterMap id) := by
    rw [Packet.copies, Packet.copies, Packet.copies, ← List.filter_append, ← List.filterMap_append,
      List.take_append_drop]
  rw [find?, ← Array.findSome?_toList, ring.toList_slots, List.findSome?_append, scan, scan,
    blocks, List.getLast?_append]
  -- What is found before the tail comes first either way.
  cases (Packet.copies seq ((ring.newestFirst.take ring.tail).filterMap id)).getLast? with
  | none => rw [Option.none_or, Option.none_or, Option.or_none]
  | some packet => rw [Option.some_or, Option.some_or]

namespace Ledger

variable {ledger : Ledger} {ring : Ring Slot}

private theorem filterMap_spare (packets : List Packet) (spare : Nat) :
    (packets.map some ++ List.replicate spare none).filterMap id = packets := by
  have unseen : (List.replicate spare (none : Option Packet)).filterMap id = [] := by
    rw [List.filterMap_eq_nil_iff]
    intro slot member
    exact List.eq_of_mem_replicate member
  rw [List.filterMap_append, unseen, List.append_nil, List.filterMap_map, Function.id_comp]
  exact List.filterMap_some

theorem Describes.find?_eq_lowest? (described : ledger.Describes ring) {sent : List Packet}
    (listed : ledger.stored = sent.map Packet.trim) (seq : SeqNum) :
    ring.find? seq =
      (Packet.lowest? seq ring.tail (sent.take ledger.kept)).map Packet.trim := by
  have newer : Packet.copies seq ((ring.newestFirst.take ring.tail).filterMap id) =
      (Packet.copies seq ((sent.take ledger.kept).take ring.tail)).map Packet.trim := by
    rw [described.order, ledger.take_slots _ described.recorded, filterMap_spare, listed,
      ← List.map_take, Packet.copies_map_trim, List.take_take]
  have all : Packet.copies seq (ring.newestFirst.filterMap id) =
      (Packet.copies seq (sent.take ledger.kept)).map Packet.trim := by
    rw [described.order, slots, filterMap_spare, listed, ← List.map_take, Packet.copies_map_trim]
  rw [ring.find?_eq_lowest?, newer, all, List.getLast?_map, List.getLast?_map,
    Packet.lowest?, Option.map_or]

end Ledger

/-- A look-up by number serves the lowest live packet with the number, so it agrees with one by
slot exactly when that has the same bytes. -/
theorem Cache.run_scan_agrees_iff {capacity : Nat} {cache : Cache}
    (created : Cache.create capacity = .ok cache) (requests : List Request) {seq : SeqNum}
    {payload : ByteArray} {index : Nat} (full : payload.size ≠ 0)
    (slot : (cache.run requests).ring.slots[index]? = some (some (.ofPayload seq payload))) :
    let after := cache.run requests
    let ledger := (Ledger.blank capacity).after cache requests
    let lowest := Packet.lowest? seq after.ring.tail ((Request.sent requests).take ledger.kept)
    (∀ out, after.reply (.read seq out) = .delivered (.ofFound (lowest.map Packet.trim) out)) ∧
      (∀ out, after.reply (.readAt seq index out) =
        .delivered (.ofPacket (.ofPayload seq payload) out)) ∧
      ((∀ out, after.reply (.read seq out) = after.reply (.readAt seq index out)) ↔
        lowest.map Packet.trim = some (.ofPayload seq payload)) := by
  intro after ledger lowest
  have described : ledger.Describes after.ring := Ledger.describes_run created requests
  have listed : ledger.stored = (Request.sent requests).map Packet.trim :=
    ((Ledger.blank capacity).stored_after cache requests).trans (List.append_nil _)
  have scanned : after.ring.find? seq = lowest.map Packet.trim :=
    described.find?_eq_lowest? listed seq
  have byNumber (out : ByteArray) :
      after.reply (.read seq out) = .delivered (.ofFound (lowest.map Packet.trim) out) := by
    rw [reply, scanned]
  have indexed : after.ring.at? seq index = some (.ofPayload seq payload) := by
    rw [Ring.at?, slot]
    exact Option.filter_some_pos (decide_eq_true rfl)
  have byIndex (out : ByteArray) : after.reply (.readAt seq index out) =
      .delivered (.ofPacket (.ofPayload seq payload) out) := by
    rw [reply, indexed]
    rfl
  refine ⟨byNumber, byIndex, ?_⟩
  constructor
  · intro agree
    -- The packet is in a slot itself, so the scan finds some packet with the number.
    obtain ⟨kept, found, _⟩ := Ring.exists_mem_find? (Array.mem_of_getElem? slot)
      (Packet.trim_nonempty ⟨seq, payload⟩ full) rfl
    have number : kept.seq = seq := (Ring.of_mem_find? found).2.2
    have served : lowest.map Packet.trim = some kept := scanned.symm.trans found
    have bytes : kept.payload = (Packet.ofPayload seq payload).payload := by
      apply Delivery.payload_eq_of_ofPacket
      intro out
      have alike := agree out
      rw [byNumber, byIndex, served] at alike
      exact Reply.delivered.inj alike
    rw [served]
    obtain ⟨_, _⟩ := kept
    cases number
    cases bytes
    rfl
  · intro same out
    rw [byNumber, byIndex, same]
    rfl

/-- An older packet with the number, in a slot after the tail, does not come first. -/
theorem Cache.run_scan_agrees_iff_wrapped :
    let cache : Cache := .new ⟨3, rfl⟩
    let requests : List Request :=
      [.store ⟨8⟩ ⟨#[1]⟩, .store ⟨7⟩ ⟨#[2]⟩, .store ⟨9⟩ ⟨#[3]⟩, .store ⟨7⟩ ⟨#[4]⟩]
    let after := cache.run requests
    Cache.create 3 = .ok cache ∧ after.ring.slots[1]? = some (some ⟨⟨7⟩, ⟨#[2]⟩⟩) ∧
      ∀ out, after.reply (.read ⟨7⟩ out) = after.reply (.readAt ⟨7⟩ 0 out) := by
  intro cache requests after
  have created : Cache.create 3 = .ok cache := rfl
  have full : ByteArray.size ⟨#[4]⟩ ≠ 0 := by decide
  have slot : after.ring.slots[0]? = some (some (.ofPayload ⟨7⟩ ⟨#[4]⟩)) := by decide +kernel
  obtain ⟨_, _, agrees⟩ := Cache.run_scan_agrees_iff created requests full slot
  exact ⟨created, by decide +kernel, agrees.mpr (by decide +kernel)⟩

/-- Of two packets with the number in a ring not filled yet, a look-up by number serves the
older one. -/
theorem Cache.scan_serves_older :
    let cache : Cache := .new ⟨4, rfl⟩
    let before := cache.run [.store ⟨7⟩ ⟨#[1]⟩]
    let after := before.next (.store ⟨7⟩ ⟨#[2]⟩)
    Cache.create 4 = .ok cache ∧ before.reply (.store ⟨7⟩ ⟨#[2]⟩) = .stored ⟨7⟩ 1 ∧
      after.reply (.readAt ⟨7⟩ 1 ⟨#[0]⟩) = .delivered ⟨1, ⟨#[2]⟩⟩ ∧
      after.reply (.read ⟨7⟩ ⟨#[0]⟩) = .delivered ⟨1, ⟨#[1]⟩⟩ := by
  intro cache before after
  exact ⟨rfl, by decide +kernel, by decide +kernel, by decide +kernel⟩

end Retransmission
