import Retransmission.Ring.Resize

namespace Retransmission

/-- Slots are moved without a look at what they hold. -/
theorem map_relocate (view : α → β) (blank : α) (slots : Array α) (tail target : Nat) :
    relocate (view blank) (slots.map view) tail target =
      ((relocate blank slots tail target).1.map view, (relocate blank slots tail target).2) := by
  simp only [relocate, Array.size_map]
  split
  · rfl
  · split
    · simp
    · split <;> simp

/-- What a view shows of the slots in their places stays the same when blank ones join them
that it does not show. -/
theorem filterMap_relocate {view : α → Option β} {blank : α} (hidden : view blank = none)
    {slots : Array α} {target : Nat} (larger : slots.size ≤ target) (tail : Nat) :
    (relocate blank slots tail target).1.toList.filterMap view = slots.toList.filterMap view := by
  have unseen (count : Nat) : (List.replicate count blank).filterMap view = [] := by
    apply List.filterMap_eq_nil_iff.mpr
    intro slot member
    rw [List.eq_of_mem_replicate member, hidden]
  have parted (place : Nat) :
      (slots.extract 0 place ++ .replicate (target - slots.size) blank ++
        slots.extract place slots.size).toList.filterMap view = slots.toList.filterMap view := by
    have whole : slots.extract 0 place ++ slots.extract place slots.size = slots := by
      rw [Array.extract_append_extract, Nat.zero_min]
      exact Array.extract_eq_self_of_le (Nat.le_max_right ..)
    rw [Array.toList_append, Array.toList_append, List.filterMap_append, List.filterMap_append,
      Array.toList_replicate, unseen, List.append_nil, ← List.filterMap_append,
      ← Array.toList_append, whole]
  rw [relocate]
  split
  · rfl
  · split
    · exact parted _
    · omega

namespace Ring

theorem length_oldestFirst (ring : Ring α) : ring.oldestFirst.length = ring.capacity := by
  simp only [oldestFirst, capacity, List.length_append, List.length_drop, List.length_take,
    Array.length_toList]
  omega

/-- A ring is told by the order of its slots and the tail. -/
theorem ext_oldestFirst {ring other : Ring α} (order : ring.oldestFirst = other.oldestFirst)
    (tail : ring.tail = other.tail) : ring = other := by
  have size : ring.slots.size = other.slots.size := by
    have length := congrArg List.length order
    rwa [length_oldestFirst, length_oldestFirst] at length
  obtain ⟨older, newer⟩ := List.append_inj order (by simp [size, tail])
  refine Ring.ext (Array.toList_inj.mp ?_) tail
  rw [← List.take_append_drop ring.tail ring.slots.toList, newer, older, List.take_append_drop]

variable [Inhabited α] (ring : Ring α) (target : Capacity)

theorem tail_resize : (ring.resize target).tail =
    if target.slots = ring.capacity then ring.tail
    else if ring.capacity < target.slots then if ring.tail = 0 then ring.capacity else ring.tail
    else if ring.tail < target.slots then ring.tail
    else 0 :=
  tail_relocate default

theorem resize_size : ring.resize ring.size = ring :=
  Ring.ext (congrArg Prod.fst (if_pos rfl)) (congrArg Prod.snd (if_pos rfl))

theorem map_resize [Inhabited β] {view : α → β} (blank : view default = default) :
    (ring.resize target).map view = (ring.map view).resize target := by
  have moved := map_relocate view default ring.slots ring.tail target.slots
  rw [blank] at moved
  exact Ring.ext (congrArg Prod.fst moved).symm (congrArg Prod.snd moved).symm

theorem oldestFirst_resize : (ring.resize target).oldestFirst =
    List.replicate (target.slots - ring.capacity) default ++
      ring.oldestFirst.drop (ring.capacity - target.slots) := by
  obtain ⟨⟨slots⟩, tail, inside, limited⟩ := ring
  obtain ⟨target, valid⟩ := target
  obtain ⟨front, back, rfl, rfl⟩ : ∃ front back, slots = front ++ back ∧ tail = front.length :=
    ⟨slots.take tail, slots.drop tail, by simp, by simp at inside ⊢; omega⟩
  have order : (front ++ back).drop front.length ++ (front ++ back).take front.length =
      back ++ front := by simp
  simp only [oldestFirst, resize, capacity, order, List.size_toArray, List.length_append]
  rcases Nat.lt_trichotomy target (front.length + back.length) with smaller | rfl | bigger
  · have fewer := Nat.not_lt.mpr (Nat.le_of_lt smaller)
    rw [Nat.sub_eq_zero_of_le (Nat.le_of_lt smaller), List.replicate_zero, List.nil_append]
    by_cases room : front.length < target
    · -- The slots given up are the first of those from the tail on.
      have rest : (back.drop (front.length + back.length - target)).take
          (front.length + back.length - (front.length + (front.length + back.length - target))) =
            back.drop (front.length + back.length - target) := by
        apply List.take_of_length_le
        rw [List.length_drop]
        omega
      rw [List.drop_append_of_le_length (by omega)]
      simp [relocate, Nat.ne_of_lt smaller, fewer, room, rest]
    · -- All from the tail on are given up, and the first of those before it.
      have last : ((front ++ back).drop (front.length - target)).take
          (front.length - (front.length - target)) = front.drop (front.length - target) := by
        rw [List.drop_append_of_le_length (Nat.sub_le ..)]
        exact List.take_left' List.length_drop
      have kept : (back ++ front).drop (front.length + back.length - target) =
          front.drop (front.length - target) := by
        have beyond : front.length + back.length - target - back.length =
            front.length - target := by omega
        rw [List.drop_append, beyond, List.drop_eq_nil_of_le (by omega), List.nil_append]
      rw [kept]
      simp [relocate, Nat.ne_of_lt smaller, fewer, room, last]
  · simp [relocate]
  · rw [Nat.sub_eq_zero_of_le (Nat.le_of_lt bigger), List.drop_zero]
    by_cases start : front = []
    · subst start
      simp only [List.length_nil, Nat.zero_add] at bigger
      simp [relocate, Nat.ne_of_gt bigger, bigger]
    · simp [relocate, Nat.ne_of_gt bigger, bigger, start]

/-- A resize on the way to a smaller size leaves no trace. -/
theorem resize_resize {wide narrow : Capacity} (smaller : narrow.slots ≤ wide.slots) :
    (ring.resize wide).resize narrow = ring.resize narrow := by
  apply ext_oldestFirst
  · -- The first resize puts in front what the second one drops first.
    have opened : wide.slots - ring.capacity - (wide.slots - narrow.slots) =
        narrow.slots - ring.capacity := by omega
    have lost : ring.capacity - wide.slots +
        (wide.slots - narrow.slots - (wide.slots - ring.capacity)) =
          ring.capacity - narrow.slots := by omega
    simp only [oldestFirst_resize, capacity_resize, Nat.sub_eq_zero_of_le smaller,
      List.replicate_zero, List.nil_append, List.drop_append, List.drop_replicate, List.drop_drop,
      List.length_replicate, opened, lost]
  · have inside := ring.inside
    simp only [tail_resize, capacity_resize]
    grind

end Ring

end Retransmission
