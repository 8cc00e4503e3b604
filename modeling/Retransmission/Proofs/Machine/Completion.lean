import Retransmission.Proofs.Machine.Words

namespace Retransmission

theorem Cache.next_invalid (cache : Cache) {target : Nat}
    (invalid : Capacity.fault? target ≠ none) :
    cache.next (.resize target) = cache ∧ cache.next (.resizeIfAdmitted target) = cache := by
  obtain ⟨fault, found⟩ := Option.ne_none_iff_exists'.mp invalid
  simp [next, resize, resizeIfAdmitted, Admits, found]

namespace Machine

/-- A machine with the counters and the window of a cache, and its packets in cells. -/
structure Represents (machine : Machine) (cache : Cache) : Prop where
  counters : machine.counters = cache.counters
  window : machine.window = cache.window
  memory : ∃ storage : Storage, machine.memory = storage.image ∧ storage.Realizes cache.ring

/-- A machine within its bounds. -/
structure Sound (machine : Machine) : Prop where
  slots : 1 ≤ machine.memory.entries.size ∧ machine.memory.entries.size ≤ 65536
  tail : machine.memory.tail.toNat < machine.memory.entries.size
  lengths : ∀ entry ∈ machine.memory.entries, entry.length.toNat ≤ 1500
  buffers : ∀ entry ∈ machine.memory.entries, entry.buffer.size = 1500

namespace Represents

variable {machine : Machine} {cache : Cache}

theorem size_entries (represents : machine.Represents cache) :
    machine.memory.entries.size = cache.ring.capacity := by
  obtain ⟨storage, memory, realized⟩ := represents.memory
  rw [memory, storage.size_entries_image, realized.capacity]

theorem toNat_tail (represents : machine.Represents cache) :
    machine.memory.tail.toNat = cache.ring.tail := by
  obtain ⟨storage, memory, realized⟩ := represents.memory
  rw [memory, storage.toNat_tail_image, realized.tail]

theorem sound (represents : machine.Represents cache) : machine.Sound := by
  obtain ⟨storage, memory, realized⟩ := represents.memory
  have inside := cache.ring.inside
  have limited : cache.ring.capacity ≤ 65536 := cache.ring.limited
  rw [← represents.toNat_tail, ← represents.size_entries] at inside
  rw [← represents.size_entries] at limited
  have held (entry : Entry) (member : entry ∈ machine.memory.entries) :
      ∃ cell : Cell, cell.entry = entry := by
    rw [memory] at member
    obtain ⟨cell, _, same⟩ := Array.mem_map.mp member
    exact ⟨cell, same⟩
  refine ⟨by omega, inside, ?_, ?_⟩
  · intro entry member
    obtain ⟨cell, rfl⟩ := held entry member
    rw [cell.toNat_length_entry]
    exact cell.length_le
  · intro entry member
    obtain ⟨cell, rfl⟩ := held entry member
    exact cell.size_buffer

theorem size_payload_le (represents : machine.Represents cache) {packet : Packet}
    (member : some packet ∈ cache.ring.slots) : packet.payload.size ≤ 1500 := by
  obtain ⟨storage, _, realized⟩ := represents.memory
  have shown : packet ∈ storage.slots.map Cell.packet := by
    rw [realized.slots]
    exact Array.mem_map_of_mem member
  obtain ⟨cell, _, rfl⟩ := Array.mem_map.mp shown
  rw [cell.size_payload_packet]
  exact cell.length_le

theorem store (represents : machine.Represents cache) (seq : SeqNum) (payload : ByteArray) :
    ∃ next, machine.store? ⟨seq, payload⟩ =
        some (cache.reply (.store seq payload), next) ∧
      next.Represents (cache.store seq payload) := by
  obtain ⟨storage, memory, realized⟩ := represents.memory
  have index : (UInt16.ofNat storage.tail).toNat = cache.ring.tail :=
    storage.toNat_tail_image.trans realized.tail
  refine ⟨⟨cache.counters.record seq, cache.window.mark seq,
    (storage.insert ⟨seq, payload⟩).image⟩, ?_, rfl, rfl, storage.insert ⟨seq, payload⟩, rfl,
    realized.insert ⟨seq, payload⟩⟩
  simp only [store?, represents.counters, represents.window, memory, Counters.record?_eq,
    Window.mark?_eq, storage.insert?_image, Option.bind_eq_bind, Option.bind_some, index]
  rfl

private theorem resized (represents : machine.Represents cache) (target : Capacity) :
    ∃ memory, machine.memory.resize? target.slots = some memory ∧
      Represents { machine with memory } { cache with ring := cache.ring.resize target } := by
  obtain ⟨storage, memory, realized⟩ := represents.memory
  refine ⟨Storage.image (storage.resize target), ?_, represents.counters, represents.window,
    storage.resize target, rfl, realized.resize target⟩
  rw [memory, storage.resize?_image]

theorem resize (represents : machine.Represents cache) (target : Nat) :
    ∃ next, machine.resize? target = some next ∧ next.Represents (cache.resize target) := by
  by_cases valid : Capacity.fault? target = none
  · obtain ⟨memory, done, after⟩ := represents.resized ⟨target, valid⟩
    refine ⟨{ machine with memory }, ?_, ?_⟩
    · simp [resize?, valid, done]
    · rwa [Cache.resize, dif_pos valid]
  · obtain ⟨fault, found⟩ := Option.ne_none_iff_exists'.mp valid
    refine ⟨machine, ?_, ?_⟩
    · rw [resize?, found]
    · rwa [Cache.resize, dif_neg valid]

/-- A resize is worth making for the machine when it is for the cache. -/
theorem resizeIfAdmitted (represents : machine.Represents cache) (target : Nat) :
    ∃ next, machine.resizeIfAdmitted? target = some (decide (cache.Admits target), next) ∧
      next.Represents (cache.resizeIfAdmitted target) := by
  rw [resizeIfAdmitted?, Cache.resizeIfAdmitted]
  cases valid : Capacity.fault? target with
  | some fault =>
    refine ⟨machine, ?_, ?_⟩
    · simp [Cache.Admits, valid]
    · simpa [Cache.Admits, valid] using represents
  | none =>
    have fits : target ≤ 65536 := ((Capacity.fault?_eq_none_iff target).mp valid).2
    have double : mul? UInt64.size target 2 = some (target * 2) :=
      check_pos (show target * 2 < 18446744073709551616 by omega) _
    obtain ⟨memory, done, after⟩ := represents.resized ⟨target, valid⟩
    simp only [double, represents.size_entries, represents.toNat_tail, done, Option.bind_eq_bind,
      Option.bind_some]
    by_cases near : target / 2 ≤ cache.ring.capacity ∧ cache.ring.capacity < target * 2
    · have refused : ¬ cache.Admits target := fun admitted => admitted.2.1 near
      rw [if_pos near, if_neg refused, decide_eq_false refused]
      exact ⟨machine, rfl, represents⟩
    by_cases late : cache.ring.capacity / 2 < cache.ring.tail ∧ target / 2 < cache.ring.tail
    · have refused : ¬ cache.Admits target := fun admitted => admitted.2.2 late
      rw [if_neg near, if_pos late, if_neg refused, decide_eq_false refused]
      exact ⟨machine, rfl, represents⟩
    · have admitted : cache.Admits target := ⟨valid, near, late⟩
      rw [if_neg near, if_neg late, if_pos admitted, decide_eq_true admitted, Cache.resize,
        dif_pos valid]
      exact ⟨{ machine with memory }, rfl, after⟩

theorem step (represents : machine.Represents cache) (request : Request) :
    ∃ next, machine.step? request = some (cache.reply request, next) ∧
      next.Represents (cache.next request) := by
  obtain ⟨storage, memory, realized⟩ := represents.memory
  cases request with
  | store seq payload => exact represents.store seq payload
  | resize target =>
    obtain ⟨next, done, after⟩ := represents.resize target
    refine ⟨next, ?_, after⟩
    rw [step?, done]
    rfl
  | resizeIfAdmitted target =>
    obtain ⟨next, done, after⟩ := represents.resizeIfAdmitted target
    refine ⟨next, ?_, after⟩
    rw [step?, done]
    rfl
  | read seq out =>
    refine ⟨machine, ?_, represents⟩
    rw [step?, memory, storage.read?_image, realized.read]
    rfl
  | readAt seq index out =>
    refine ⟨machine, ?_, represents⟩
    rw [step?, memory, storage.readAt?_image, realized.readAt]
    rfl
  | readNewest out =>
    refine ⟨machine, ?_, represents⟩
    rw [step?, memory, storage.readNewest?_image, realized.readNewest]
    rfl
  | capacity =>
    refine ⟨machine, ?_, represents⟩
    rw [step?, represents.size_entries]
    rfl
  | first =>
    refine ⟨machine, ?_, represents⟩
    rw [step?, represents.window]
    rfl
  | expect count =>
    refine ⟨_, rfl, ?_, represents.window, represents.memory⟩
    exact congrArg (Counters.expect · count) represents.counters
  | drain =>
    refine ⟨{ machine with window := cache.window.dropBlock }, ?_, represents.counters, rfl,
      represents.memory⟩
    rw [step?, represents.window, Window.drain?_eq]
    rfl
  | report reset =>
    have reported : machine.counters.report? = some cache.counters.report := by
      rw [represents.counters, Counters.report?_eq]
    cases reset with
    | false =>
      refine ⟨machine, ?_, represents⟩
      rw [step?, reported]
      rfl
    | true =>
      refine ⟨{ machine with counters := machine.counters.closePeriod }, ?_,
        congrArg Counters.closePeriod represents.counters, represents.window,
        represents.memory⟩
      rw [step?, reported]
      rfl

theorem run (represents : machine.Represents cache) (requests : List Request) :
    ∃ final, machine.run? requests = some ((cache.answers requests).map Answer.reply, final) ∧
      final.Represents (cache.run requests) := by
  induction requests generalizing machine cache with
  | nil => exact ⟨machine, rfl, represents⟩
  | cons request rest ih =>
    obtain ⟨next, stepped, after⟩ := represents.step request
    obtain ⟨final, ran, last⟩ := ih after
    refine ⟨final, ?_, last⟩
    simp only [run?, stepped, ran, Option.bind_eq_bind, Option.bind_some]
    rfl

end Represents

theorem represents_create {capacity : Nat} {cache : Cache}
    (created : Cache.create capacity = .ok cache) :
    ∃ machine, create capacity = .ok machine ∧ machine.Represents cache := by
  obtain ⟨valid, rfl⟩ := Cache.create_eq_ok_iff.mp created
  refine ⟨⟨.start, .empty, .blank capacity⟩, ?_, rfl, rfl, .blank ⟨capacity, valid⟩,
    (Storage.image_blank ⟨capacity, valid⟩).symm, Storage.realizes_blank ⟨capacity, valid⟩⟩
  rw [create, valid]

theorem step?_invalid (machine : Machine) {target : Nat}
    (invalid : Capacity.fault? target ≠ none) :
    machine.step? (.resize target) = some (.done, machine) ∧
      machine.step? (.resizeIfAdmitted target) = some (.admitted false, machine) := by
  obtain ⟨fault, found⟩ := Option.ne_none_iff_exists'.mp invalid
  simp [step?, resize?, resizeIfAdmitted?, found]

/-- On a machine made for 1 to 65536 slots no run of requests is ever refused a step, and its
replies are those of the cache. -/
theorem run_completes (capacity : Nat) :
    ((∃ cache, Cache.create capacity = .ok cache) ↔ 1 ≤ capacity ∧ capacity ≤ 65536) ∧
      ∀ cache, Cache.create capacity = .ok cache →
        ∃ machine, create capacity = .ok machine ∧ ∀ requests, ∃ final,
          machine.run? requests = some ((cache.answers requests).map Answer.reply, final) ∧
          final.Represents (cache.run requests) ∧ final.Sound ∧
          (∀ packet, some packet ∈ (cache.run requests).ring.slots → packet.payload.size ≤ 1500) ∧
          ∀ target, ¬ (1 ≤ target ∧ target ≤ 65536) →
            (final.step? (.resize target) = some (.done, final) ∧
              final.step? (.resizeIfAdmitted target) = some (.admitted false, final)) ∧
            (cache.run requests).next (.resize target) = cache.run requests ∧
              (cache.run requests).next (.resizeIfAdmitted target) = cache.run requests := by
  constructor
  · constructor
    · rintro ⟨cache, created⟩
      obtain ⟨valid, _⟩ := Cache.create_eq_ok_iff.mp created
      exact (Capacity.fault?_eq_none_iff capacity).mp valid
    · intro bounds
      have valid := (Capacity.fault?_eq_none_iff capacity).mpr bounds
      exact ⟨_, Cache.create_eq_ok_iff.mpr ⟨valid, rfl⟩⟩
  · intro cache created
    obtain ⟨machine, made, represents⟩ := represents_create created
    refine ⟨machine, made, ?_⟩
    intro requests
    obtain ⟨final, ran, last⟩ := represents.run requests
    refine ⟨final, ran, last, last.sound, fun packet => last.size_payload_le, ?_⟩
    intro target outside
    have invalid : Capacity.fault? target ≠ none := fun valid =>
      outside ((Capacity.fault?_eq_none_iff target).mp valid)
    exact ⟨final.step?_invalid invalid, (cache.run requests).next_invalid invalid⟩

/-- A ring that grows while its tail is at the front, and a window that is drained. -/
theorem run_completes_resized :
    let cache : Cache := .new ⟨2, rfl⟩
    let requests : List Request :=
      [.store ⟨65535⟩ ⟨#[1]⟩, .store ⟨1⟩ ⟨#[2]⟩, .resize 3, .store ⟨0⟩ ⟨#[3]⟩, .drain,
        .readNewest ⟨#[0]⟩]
    Cache.create 2 = .ok cache ∧ ∃ machine final, create 2 = .ok machine ∧
      machine.run? requests =
        some ([.stored ⟨65535⟩ 0, .stored ⟨65535⟩ 1, .done, .stored ⟨65535⟩ 2,
          .drained ⟨true, ⟨2⟩, 0x1fff⟩, .delivered ⟨1, ⟨#[3]⟩⟩], final) ∧
      final.Sound ∧ ¬ (1 ≤ 0 ∧ 0 ≤ 65536) ∧ final.step? (.resize 0) = some (.done, final) := by
  intro cache requests
  have created : Cache.create 2 = .ok cache := rfl
  obtain ⟨_, completes⟩ := run_completes 2
  obtain ⟨machine, made, runs⟩ := completes cache created
  obtain ⟨final, ran, _, sound, _, unchanged⟩ := runs requests
  have replies : (cache.answers requests).map Answer.reply =
      [.stored ⟨65535⟩ 0, .stored ⟨65535⟩ 1, .done, .stored ⟨65535⟩ 2,
        .drained ⟨true, ⟨2⟩, 0x1fff⟩, .delivered ⟨1, ⟨#[3]⟩⟩] := by decide +kernel
  rw [replies] at ran
  have invalid : ¬ (1 ≤ 0 ∧ 0 ≤ 65536) := by decide
  exact ⟨created, machine, final, made, ran, sound, invalid, (unchanged 0 invalid).1.1⟩

end Machine

end Retransmission
