import Retransmission.Proofs.Cache.Absorption

namespace Retransmission

namespace Ring

variable {ring : Ring Slot} {target : Capacity}

theorem find?_resize (larger : ring.capacity ≤ target.slots) (seq : SeqNum) :
    (ring.resize target).find? seq = ring.find? seq := by
  rw [find?, find?, ← Array.findSome?_toList, ← Array.findSome?_toList, ← List.head?_filterMap,
    ← List.head?_filterMap, resize, filterMap_relocate rfl larger]

theorem newest?_eq_head? (ring : Ring Slot) : ring.newest? = ring.newestFirst.head?.join := by
  rw [newest?, getElem?_slots ring ring.beforeTail_lt, age_beforeTail, List.head?_eq_getElem?]

/-- The newest packet is kept by every resize, to more slots or to fewer. -/
theorem newest?_resize (ring : Ring Slot) (target : Capacity) :
    (ring.resize target).newest? = ring.newest? := by
  have positive := target.positive
  rw [newest?_eq_head?, newest?_eq_head?, newestFirst_resize, List.head?_append, List.head?_take,
    if_neg (by omega)]
  cases order : ring.newestFirst with
  | nil =>
    have length := ring.length_newestFirst
    have positive := ring.positive
    rw [order, List.length_nil] at length
    omega
  | cons slot others => rfl

end Ring

/-- A resize to as many slots or more goes unnoticed by a look-up by number and by a read of the
newest packet. -/
theorem Cache.run_growth_unnoticed {capacity : Nat} {cache : Cache}
    (created : Cache.create capacity = .ok cache) (requests : List Request) {target : Nat}
    (valid : Capacity.fault? target = none) (larger : (cache.run requests).capacity ≤ target)
    (out : ByteArray) :
    let after := cache.run requests
    let grown := cache.run (requests ++ [.resize target])
    let memory := Storage.after cache requests
    let grownMemory := Storage.after cache (requests ++ [.resize target])
    grown.capacity = target ∧
      (∀ seq, grown.reply (.read seq out) = after.reply (.read seq out) ∧
        grownMemory.read seq out = memory.read seq out) ∧
      grown.reply (.readNewest out) = after.reply (.readNewest out) ∧
      grownMemory.readNewest out = memory.readNewest out := by
  obtain ⟨target, rfl⟩ := Capacity.exists_slots_eq valid
  intro after grown memory grownMemory
  have realized : memory.Realizes after.ring := Storage.realizes_run created requests
  have grownRealized : grownMemory.Realizes grown.ring := Storage.realizes_run created _
  have ring : grown.ring = after.ring.resize target :=
    congrArg Cache.ring (cache.run_resize target requests)
  have found (seq : SeqNum) : grown.ring.find? seq = after.ring.find? seq := by
    rw [ring, Ring.find?_resize larger]
  have newest : grown.ring.newest? = after.ring.newest? := by
    rw [ring, Ring.newest?_resize]
  refine ⟨?_, ?_, ?_, ?_⟩
  · rw [Cache.capacity, ring, Ring.capacity_resize]
  · intro seq
    constructor
    · rw [reply, reply, found]
    · rw [grownRealized.read, realized.read, found]
  · rw [reply, reply, newest]
  · rw [grownRealized.readNewest, realized.readNewest, newest]

/-- A ring that has gone round, with three packets under one number, of which one is empty and
the newer of the others is found. -/
theorem Cache.run_growth_unnoticed_copies :
    let cache : Cache := .new ⟨3, rfl⟩
    let requests : List Request :=
      [.store ⟨8⟩ ⟨#[1]⟩, .store ⟨7⟩ .empty, .store ⟨7⟩ ⟨#[2]⟩, .store ⟨7⟩ ⟨#[3]⟩]
    let grown := cache.run (requests ++ [.resize 5])
    let out : ByteArray := ⟨#[0, 9]⟩
    Cache.create 3 = .ok cache ∧ Capacity.fault? 5 = none ∧
      (cache.run requests).capacity ≤ 5 ∧ grown.capacity = 5 ∧
      grown.ring.slots.map (·.map Packet.seq) = #[some ⟨7⟩, none, none, some ⟨7⟩, some ⟨7⟩] ∧
      grown.reply (.read ⟨7⟩ out) = .delivered ⟨1, ⟨#[3, 9]⟩⟩ ∧
      grown.reply (.readNewest out) = .delivered ⟨1, ⟨#[3, 9]⟩⟩ := by
  intro cache requests grown out
  have created : Cache.create 3 = .ok cache := rfl
  have valid : Capacity.fault? 5 = none := rfl
  have larger : (cache.run requests).capacity ≤ 5 := by decide +kernel
  obtain ⟨size, found, newest, _⟩ := Cache.run_growth_unnoticed created requests valid larger out
  refine ⟨created, valid, larger, size, by decide +kernel, ?_, ?_⟩
  · rw [(found ⟨7⟩).1]
    decide +kernel
  · rw [newest]
    decide +kernel

end Retransmission
