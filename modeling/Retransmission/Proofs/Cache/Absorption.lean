import Retransmission.Proofs.Cache.Lifetime

/-! A resize is forgotten by a later one to no more slots. Whatever the first did to
the slots and the tail, the ring, its memory and the account of the run end up as if
only the later one had been made. -/

namespace Retransmission

theorem Ledger.resize_resize (ledger : Ledger) {wide narrow : Nat} (smaller : narrow ≤ wide) :
    (ledger.resize wide).resize narrow = ledger.resize narrow := by
  simp only [resize, Nat.min_assoc, Nat.min_eq_right smaller]

theorem Ledger.Describes.resize_capacity {ledger : Ledger} {ring : Ring Slot}
    (described : ledger.Describes ring) : ledger.resize ring.capacity = ledger := by
  rw [described.capacity, Ledger.resize, Nat.min_eq_left described.fits]

section Last

variable (cache : Cache) (target : Capacity) (requests : List Request)

theorem Cache.change_resize : cache.change (.resize target.slots) = .resize target :=
  dif_pos target.valid

theorem Cache.run_resize :
    cache.run (requests ++ [.resize target.slots]) =
      { cache.run requests with ring := (cache.run requests).ring.resize target } := by
  rw [run_append, run_cons, run_nil, next, resize, dif_pos target.valid]

theorem Ledger.after_resize (ledger : Ledger) :
    ledger.after cache (requests ++ [.resize target.slots]) =
      (ledger.after cache requests).resize target.slots := by
  rw [after_eq, after_eq, cache.changes_append, List.foldl_append, Cache.changes,
    Cache.change_resize]
  rfl

theorem Storage.after_resize :
    after cache (requests ++ [.resize target.slots]) =
      (after cache requests : Ring Cell).resize target := by
  rw [after_append_singleton, Cache.change_resize]
  rfl

end Last

section LastTwo

variable (cache : Cache) {wide narrow : Capacity} (smaller : narrow.slots ≤ wide.slots)
  (requests : List Request)
include smaller

theorem Cache.run_resize_resize :
    cache.run (requests ++ [.resize wide.slots, .resize narrow.slots]) =
      cache.run (requests ++ [.resize narrow.slots]) := by
  rw [List.append_cons, cache.run_resize, cache.run_resize, cache.run_resize,
    Ring.resize_resize _ smaller]

theorem Storage.after_resize_resize :
    after cache (requests ++ [.resize wide.slots, .resize narrow.slots]) =
      after cache (requests ++ [.resize narrow.slots]) := by
  rw [List.append_cons, after_resize, after_resize, after_resize, Ring.resize_resize _ smaller]

theorem Ledger.after_resize_resize (ledger : Ledger) :
    ledger.after cache (requests ++ [.resize wide.slots, .resize narrow.slots]) =
      ledger.after cache (requests ++ [.resize narrow.slots]) := by
  rw [List.append_cons, after_resize, after_resize, after_resize, resize_resize _ smaller]

end LastTwo

/-- A ring that grew from a tail at the front warns of lost indices on its way back. -/
theorem Ring.resizeEvents_back [Inhabited α] (ring : Ring α) {wide : Capacity}
    (start : ring.tail = 0) (larger : ring.capacity < wide.slots) :
    (ring.resize wide).resizeEvents ring.capacity =
      [.indicesInvalidated wide.slots ring.capacity ring.capacity,
        .resized wide.slots ring.capacity] := by
  have tail : (ring.resize wide).tail = ring.capacity := by
    rw [tail_resize, if_neg (Nat.ne_of_gt larger), if_pos larger, if_pos start]
  simp only [resizeEvents, ring.capacity_resize wide, tail]
  rw [if_neg (Nat.ne_of_lt larger), if_pos (Nat.le_refl _)]

/-- A resize leaves no trace, in the ring or in memory, once another to no more slots has
followed. -/
theorem Cache.run_resize_absorbed {capacity : Nat} {cache : Cache}
    (created : Cache.create capacity = .ok cache) (requests : List Request) {wide : Nat}
    (wider : Capacity.fault? wide = none) :
    let after := cache.run requests
    let memory := Storage.after cache
    let ledger := (Ledger.blank capacity).after cache
    (∀ narrow ≤ wide, Capacity.fault? narrow = none →
      let detour := requests ++ [Request.resize wide, .resize narrow]
      let direct := requests ++ [Request.resize narrow]
      (cache.run direct).capacity = narrow ∧ cache.run detour = cache.run direct ∧
        memory detour = memory direct) ∧
    (after.capacity ≤ wide →
      let detour := requests ++ [Request.resize wide, .resize after.capacity]
      cache.run detour = after ∧ memory detour = memory requests ∧
      (∀ index age, (ledger requests).Shows after.ring index age →
        (ledger detour).Shows (cache.run detour).ring index age) ∧
      (after.ring.tail = 0 → after.capacity < wide →
        (after.next (.resize wide)).events (.resize after.capacity) =
          [.indicesInvalidated wide after.capacity after.capacity,
            .resized wide after.capacity])) := by
  obtain ⟨wide, rfl⟩ := Capacity.exists_slots_eq wider
  intro after memory ledger
  have described : (ledger requests).Describes after.ring := Ledger.describes_run created requests
  have realized : (memory requests).Realizes after.ring := Storage.realizes_run created requests
  refine ⟨?_, ?_⟩
  · intro narrow smaller valid detour direct
    obtain ⟨narrow, rfl⟩ := Capacity.exists_slots_eq valid
    refine ⟨?_, cache.run_resize_resize smaller requests,
      Storage.after_resize_resize cache smaller requests⟩
    rw [cache.run_resize]
    exact after.ring.capacity_resize narrow
  · intro larger detour
    have back : after.ring.size.slots ≤ wide.slots := larger
    have ran : cache.run detour = after := calc
      cache.run detour = cache.run (requests ++ [Request.resize after.capacity]) :=
        cache.run_resize_resize back requests
      _ = { after with ring := after.ring.resize after.ring.size } :=
        cache.run_resize after.ring.size requests
      _ = after := by rw [Ring.resize_size]
    have stored : memory detour = memory requests := calc
      memory detour = memory (requests ++ [Request.resize after.capacity]) :=
        Storage.after_resize_resize cache back requests
      _ = (memory requests : Ring Cell).resize after.ring.size :=
        Storage.after_resize cache after.ring.size requests
      _ = memory requests := by rw [← realized.size, Ring.resize_size]
    have listed : ledger detour = ledger requests := calc
      ledger detour = ledger (requests ++ [Request.resize after.capacity]) :=
        Ledger.after_resize_resize cache back requests _
      _ = (ledger requests).resize after.capacity :=
        Ledger.after_resize cache after.ring.size requests _
      _ = ledger requests := described.resize_capacity
    refine ⟨ran, stored, ?_, ?_⟩
    · intro index age shown
      rw [ran, listed]
      exact shown
    · intro start grown
      have valid : Capacity.fault? after.capacity = none := after.ring.size.valid
      simp only [next, resize, dif_pos wide.valid, events, resizeEvents, valid]
      exact after.ring.resizeEvents_back start grown

/-- A full ring with its tail at the front, made larger and then either smaller than it
was or as large. -/
theorem Cache.run_resize_absorbed_full :
    let cache : Cache := .new ⟨2, rfl⟩
    let requests : List Request := [.store ⟨7⟩ ⟨#[1]⟩, .store ⟨8⟩ ⟨#[2]⟩]
    let lower := requests ++ [Request.resize 5, .resize 1]
    let back := requests ++ [Request.resize 5, .resize 2]
    let after := cache.run requests
    let memory := Storage.after cache
    let ledger : Ledger := ⟨[⟨⟨8⟩, ⟨#[2]⟩⟩, ⟨⟨7⟩, ⟨#[1]⟩⟩], 2, 2⟩
    Cache.create 2 = .ok cache ∧ Capacity.fault? 5 = none ∧ Capacity.fault? 1 = none ∧
      (cache.run (requests ++ [Request.resize 1])).capacity = 1 ∧
      cache.run lower = cache.run (requests ++ [Request.resize 1]) ∧
      memory lower = memory (requests ++ [Request.resize 1]) ∧
      after.ring.tail = 0 ∧ cache.run back = after ∧ memory back = memory requests ∧
      ledger.Shows after.ring 0 1 ∧ ledger.Shows (cache.run back).ring 0 1 ∧
      (after.next (.resize 5)).events (.resize 2) = [.indicesInvalidated 5 2 2, .resized 5 2] := by
  intro cache requests lower back after memory ledger
  have created : Cache.create 2 = .ok cache := rfl
  have wider : Capacity.fault? 5 = none := rfl
  have valid : Capacity.fault? 1 = none := rfl
  obtain ⟨absorbed, restored⟩ := Cache.run_resize_absorbed created requests wider
  obtain ⟨size, ran, stored⟩ := absorbed 1 (by decide) valid
  have capacity : after.capacity = 2 := by decide +kernel
  have start : after.ring.tail = 0 := by decide +kernel
  have shown : ledger.Shows after.ring 0 1 :=
    ⟨by decide +kernel, by decide +kernel, by decide +kernel⟩
  obtain ⟨same, cells, slots, warned⟩ := restored (by decide +kernel)
  have again := slots 0 1 shown
  have events := warned start (by decide +kernel)
  rw [capacity] at same cells again events
  exact ⟨created, wider, valid, size, ran, stored, start, same, cells, shown, again, events⟩

end Retransmission
