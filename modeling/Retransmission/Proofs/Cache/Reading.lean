import Retransmission.Proofs.Cache.Ledger
import Retransmission.Proofs.Ring.Age
import Retransmission.Proofs.Ring.Memory

namespace Retransmission

theorem Packet.trim_nonempty (packet : Packet) (full : packet.payload.size ≠ 0) :
    packet.trim.payload.size ≠ 0 := by
  rw [size_payload_trim]
  omega

namespace Delivery

/-- A buffer that was served from a payload: as many bytes as are kept of it and
fit, and after them the reader's own. -/
structure Serves (delivery : Delivery) (payload out : ByteArray) : Prop where
  count : delivery.count = min payload.size (min 1500 out.size)
  size : delivery.buffer.size = out.size
  written : ∀ index < delivery.count, delivery.buffer.data[index]? = payload.data[index]?
  untouched : ∀ index ≥ delivery.count, delivery.buffer.data[index]? = out.data[index]?

/-- The outcome of a read that looks for packets of one kind. -/
structure Answers (delivery : Delivery) (out : ByteArray) (sought : Packet → Prop) : Prop where
  hit_iff : 0 < delivery.count ↔
    out.size ≠ 0 ∧ ∃ packet, sought packet ∧ packet.payload.size ≠ 0
  hit : 0 < delivery.count → ∃ packet, sought packet ∧ delivery.Serves packet.payload out
  miss : delivery.count = 0 → delivery.buffer = out

private theorem getElem?_spliced (source out : ByteArray) {count : Nat}
    (enough : count ≤ source.size) (index : Nat) :
    (source.extract 0 count ++ out.extract count out.size).data[index]? =
      if index < count then source.data[index]? else out.data[index]? := by
  have front : (source.extract 0 count).data.size = count := by
    rw [ByteArray.size_data, ByteArray.size_extract]
    omega
  rw [ByteArray.data_append, Array.getElem?_append, front]
  split
  · rw [ByteArray.data_extract, Array.getElem?_extract, ByteArray.size_data, if_pos (by omega),
      Nat.zero_add]
  · rw [ByteArray.data_extract, Array.getElem?_extract, ByteArray.size_data]
    split
    · congr 1
      omega
    · rw [Array.getElem?_eq_none]
      rw [ByteArray.size_data]
      omega

theorem serves_ofPacket (packet : Packet) (out : ByteArray) :
    (ofPacket packet.trim out).Serves packet.payload out := by
  have kept := packet.size_payload_trim
  have spliced := getElem?_spliced packet.trim.payload out (Nat.min_le_left _ out.size)
  refine ⟨?_, size_buffer_ofFound (some packet.trim) out, ?_, ?_⟩
  · rw [ofPacket, kept, Nat.min_assoc]
  · intro index within
    have inside : index < min packet.trim.payload.size out.size := within
    rw [ofPacket, spliced, if_pos inside, Packet.trim, ByteArray.data_extract,
      Array.getElem?_extract, ByteArray.size_data, if_pos (by omega), Nat.zero_add]
  · intro index past
    exact (spliced index).trans (if_neg (Nat.not_lt.mpr past))

theorem answers_ofFound {found : Option Packet} {sought : Packet → Prop} (out : ByteArray)
    (sound : ∀ kept ∈ found, ∃ packet, sought packet ∧ packet.trim = kept)
    (complete : ∀ packet, sought packet → packet.payload.size ≠ 0 →
      ∃ kept ∈ found, kept.payload.size ≠ 0) :
    (ofFound found out).Answers out sought := by
  cases found with
  | none =>
    refine ⟨⟨?_, ?_⟩, ?_, ?_⟩
    · intro hit
      cases hit
    · rintro ⟨_, packet, member, full⟩
      obtain ⟨_, kept, _⟩ := complete packet member full
      cases kept
    · intro hit
      cases hit
    · intro _
      rfl
  | some kept =>
    obtain ⟨packet, member, rfl⟩ := sound kept rfl
    have served := serves_ofPacket packet out
    refine ⟨⟨?_, ?_⟩, ?_, ?_⟩
    · intro hit
      have count := served.count
      simp only [ofFound] at hit
      exact ⟨by omega, packet, member, by omega⟩
    · rintro ⟨room, other, also, full⟩
      obtain ⟨found, same, full⟩ := complete other also full
      cases same
      simp only [ofFound, ofPacket]
      omega
    · intro _
      exact ⟨packet, member, served⟩
    · intro missed
      apply ByteArray.ext
      apply Array.ext_getElem?
      intro index
      exact served.untouched index (missed ▸ Nat.zero_le index)

end Delivery

namespace Ring

variable {ring : Ring Slot} {seq : SeqNum} {packet : Packet}

theorem of_mem_find? (found : packet ∈ ring.find? seq) :
    some packet ∈ ring.slots ∧ packet.payload.size ≠ 0 ∧ packet.seq = seq := by
  obtain ⟨slot, member, selected⟩ := Array.exists_of_findSome?_eq_some found
  obtain ⟨rfl, sought⟩ := Option.filter_eq_some_iff.mp selected
  exact ⟨member, of_decide_eq_true sought⟩

theorem exists_mem_find? (member : some packet ∈ ring.slots) (full : packet.payload.size ≠ 0)
    (number : packet.seq = seq) : ∃ found ∈ ring.find? seq, found.payload.size ≠ 0 := by
  cases found : ring.find? seq with
  | none =>
    have skipped := Array.findSome?_eq_none_iff.mp found _ member
    rw [Option.filter_some_pos (by simpa [full] using number)] at skipped
    cases skipped
  | some other => exact ⟨other, rfl, (of_mem_find? found).2.1⟩

end Ring

namespace Ledger

variable {ledger : Ledger} {ring : Ring Slot}

theorem Describes.getElem?_slots (described : ledger.Describes ring) {index : Nat}
    (within : index < ring.capacity) :
    ring.slots[index]? =
      some (if ring.age index < ledger.kept then ledger.stored[ring.age index]? else none) := by
  have aged := ring.age_lt within
  rw [ring.getElem?_slots within, described.order]
  exact ledger.getElem?_slots described.recorded (described.capacity ▸ aged)

theorem Describes.mem_slots (described : ledger.Describes ring) {packet : Packet} :
    some packet ∈ ring.slots ↔ packet ∈ ledger.stored.take ledger.kept := by
  rw [← Ring.mem_newestFirst, described.order, slots, List.mem_append]
  simp only [List.mem_map, List.mem_replicate, reduceCtorEq, and_false, or_false,
    Option.some.injEq, exists_eq_right]

/-- The newest packet is kept through every resize. -/
theorem Describes.kept_pos {changes : List Change} (described : ledger.Describes ring)
    (before : ledger.stored ≠ [] → 0 < ledger.kept) :
    (changes.foldl Ledger.change ledger).stored ≠ [] →
      0 < (changes.foldl Ledger.change ledger).kept := by
  induction changes generalizing ledger ring with
  | nil => exact before
  | cons change rest ih =>
    refine ih (described.change change) ?_
    have positive := described.positive
    cases change with
    | keep => exact before
    | insert packet =>
      intro _
      simp only [Ledger.change, Ledger.store]
      omega
    | resize target =>
      intro stored
      have kept := before stored
      have slots := target.positive
      simp only [Ledger.change, Ledger.resize]
      omega

section Answers

variable {sent : List Packet} (described : ledger.Describes ring)
  (listed : ledger.stored = sent.map Packet.trim)
include described listed

private theorem Describes.mem_slots_live {kept : Packet} :
    some kept ∈ ring.slots ↔ ∃ packet ∈ sent.take ledger.kept, packet.trim = kept := by
  rw [described.mem_slots, listed, ← List.map_take, List.mem_map]

private theorem Describes.getElem?_slots_live {index : Nat} (within : index < ring.capacity) :
    ring.slots[index]? =
      some ((sent.take ledger.kept)[ring.age index]?.map Packet.trim) := by
  rw [described.getElem?_slots within, listed, List.getElem?_take, List.getElem?_map]
  split <;> rfl

theorem Describes.answers_find (seq : SeqNum) (out : ByteArray) :
    (Delivery.ofFound (ring.find? seq) out).Answers out fun packet =>
      packet ∈ sent.take ledger.kept ∧ packet.seq = seq := by
  apply Delivery.answers_ofFound
  · intro kept found
    obtain ⟨member, _, number⟩ := Ring.of_mem_find? found
    obtain ⟨packet, live, rfl⟩ := (described.mem_slots_live listed).mp member
    exact ⟨packet, ⟨live, number⟩, rfl⟩
  · rintro packet ⟨live, number⟩ full
    have member := (described.mem_slots_live listed).mpr ⟨packet, live, rfl⟩
    exact Ring.exists_mem_find? member (packet.trim_nonempty full) number

theorem Describes.answers_at (seq : SeqNum) (index : Nat) (out : ByteArray) :
    (Delivery.ofFound (ring.at? seq index) out).Answers out fun packet =>
      index < ring.capacity ∧ (sent.take ledger.kept)[ring.age index]? = some packet ∧
        packet.seq = seq := by
  apply Delivery.answers_ofFound
  · intro kept found
    by_cases within : index < ring.capacity
    · rw [Ring.at?, described.getElem?_slots_live listed within, Option.join_some] at found
      obtain ⟨held, number⟩ := Option.filter_eq_some_iff.mp found
      obtain ⟨packet, live, rfl⟩ := Option.map_eq_some_iff.mp held
      exact ⟨packet, ⟨within, live, of_decide_eq_true number⟩, rfl⟩
    · rw [Ring.at?, Array.getElem?_eq_none (Nat.not_lt.mp within)] at found
      cases found
  · rintro packet ⟨within, live, number⟩ full
    refine ⟨packet.trim, ?_, packet.trim_nonempty full⟩
    rw [Ring.at?, described.getElem?_slots_live listed within, live, Option.map_some,
      Option.join_some]
    exact Option.filter_some_pos (decide_eq_true number)

theorem Describes.answers_newest (newest : ledger.stored ≠ [] → 0 < ledger.kept)
    (out : ByteArray) :
    (Delivery.ofFound ring.newest? out).Answers out fun packet => sent.head? = some packet := by
  have found : ring.newest? = sent.head?.map Packet.trim := by
    rw [Ring.newest?, described.getElem?_slots_live listed ring.beforeTail_lt,
      ring.age_beforeTail, Option.join_some]
    cases sent with
    | nil => simp
    | cons packet earlier =>
      have kept : 0 < ledger.kept := newest (by simp [listed])
      rw [List.getElem?_take_of_lt kept]
      rfl
  rw [found]
  apply Delivery.answers_ofFound
  · intro kept same
    obtain ⟨packet, head, rfl⟩ := Option.map_eq_some_iff.mp same
    exact ⟨packet, head, rfl⟩
  · intro packet head full
    exact ⟨packet.trim, Option.map_eq_some_iff.mpr ⟨packet, head, rfl⟩, packet.trim_nonempty full⟩

end Answers

end Ledger

/-- Every read serves a live packet of the kind it looks for, as far as it fits, and misses only
when there is nothing to copy. -/
theorem Cache.run_reads_live {capacity : Nat} {cache : Cache}
    (created : Cache.create capacity = .ok cache) (requests : List Request) (out : ByteArray) :
    let after := cache.run requests
    let sent := Request.sent requests
    let ledger := (Ledger.blank capacity).after cache requests
    let live := sent.take ledger.kept
    let storage := Storage.after cache requests
    (∀ seq, ∃ delivery, after.reply (.read seq out) = .delivered delivery ∧
      storage.read seq out = delivery ∧
      delivery.Answers out fun packet => packet ∈ live ∧ packet.seq = seq) ∧
    (∀ seq index, ∃ delivery, after.reply (.readAt seq index out) = .delivered delivery ∧
      storage.readAt seq index out = delivery ∧
      delivery.Answers out fun packet => index < after.capacity ∧
        live[after.ring.age index]? = some packet ∧ packet.seq = seq) ∧
    ∃ delivery, after.reply (.readNewest out) = .delivered delivery ∧
      storage.readNewest out = delivery ∧
      delivery.Answers out fun packet => sent.head? = some packet := by
  intro after sent ledger live storage
  have described : ledger.Describes after.ring := Ledger.describes_run created requests
  have realized : storage.Realizes after.ring := Storage.realizes_run created requests
  have listed : ledger.stored = sent.map Packet.trim :=
    ((Ledger.blank capacity).stored_after cache requests).trans (List.append_nil _)
  have newest : ledger.stored ≠ [] → 0 < ledger.kept := by
    obtain ⟨valid, rfl⟩ := Cache.create_eq_ok_iff.mp created
    simp only [ledger, Ledger.after_eq]
    exact (Ledger.describes_blank ⟨capacity, valid⟩).kept_pos (absurd rfl ·)
  refine ⟨?_, ?_, ?_⟩
  · intro seq
    exact ⟨_, rfl, realized.read seq out, described.answers_find listed seq out⟩
  · intro seq index
    exact ⟨_, rfl, realized.readAt seq index out, described.answers_at listed seq index out⟩
  · exact ⟨_, rfl, realized.readNewest out, described.answers_newest listed newest out⟩

/-- A short packet in the buffer of a longer one is read alone, also after it moved. -/
theorem Cache.run_reads_live_overwritten :
    let cache : Cache := .new ⟨2, rfl⟩
    let requests : List Request :=
      [.store ⟨7⟩ ⟨#[1, 2, 3]⟩, .store ⟨8⟩ ⟨#[4]⟩, .store ⟨9⟩ ⟨#[5]⟩, .resize 1]
    let out : ByteArray := ⟨#[0, 6]⟩
    Cache.create 2 = .ok cache ∧
      ∃ delivery, (cache.run requests).reply (.read ⟨9⟩ out) = .delivered delivery ∧
        delivery.count = 1 ∧ delivery.buffer.data[0]? = some 5 ∧
        delivery.buffer.data[1]? = some 6 := by
  intro cache requests out
  have created : Cache.create 2 = .ok cache := rfl
  obtain ⟨delivery, reply, _, answers⟩ := (Cache.run_reads_live created requests out).1 ⟨9⟩
  have live : (Request.sent requests).take ((Ledger.blank 2).after cache requests).kept =
      [⟨⟨9⟩, ⟨#[5]⟩⟩] := by decide +kernel
  rw [live] at answers
  have hit := answers.hit_iff.mpr ⟨by decide, _, ⟨List.mem_singleton_self _, rfl⟩, by decide⟩
  obtain ⟨packet, ⟨member, _⟩, served⟩ := answers.hit hit
  cases List.mem_singleton.mp member
  have count : delivery.count = 1 := served.count
  exact ⟨created, delivery, reply, count, served.written 0 (by omega),
    served.untouched 1 (by omega)⟩

end Retransmission
