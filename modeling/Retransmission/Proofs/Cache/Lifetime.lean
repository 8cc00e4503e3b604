import Retransmission.Proofs.Cache.Reading

/-! How long a slot index stays good. A packet is known by its age, the number of
stores after its own. Its slot keeps it as long as the age of the slot is the
packet's, which a store or a resize may end. -/

namespace Retransmission

/-- The slot holds the packet of the store that `age` others followed. -/
structure Ledger.Shows (ledger : Ledger) (ring : Ring Slot) (index age : Nat) : Prop where
  within : index < ring.capacity
  aged : ring.age index = age
  kept : age < ledger.kept

/-- Changes that leave the packet of a slot there, when `age` stores followed its own. -/
def Ring.Spares (ring : Ring Slot) (index age : Nat) : List Change → Prop
  | [] => True
  | .keep :: rest => ring.Spares index age rest
  | .insert packet :: rest =>
    age + 1 < ring.capacity ∧ (ring.insert packet.trim).Spares index (age + 1) rest
  | .resize target :: rest =>
    ring.Retains index target.slots ∧ age < target.slots ∧
      (ring.resize target).Spares index age rest

instance Ring.decidableSpares (ring : Ring Slot) (index age : Nat) :
    (changes : List Change) → Decidable (ring.Spares index age changes)
  | [] => .isTrue trivial
  | .keep :: rest => ring.decidableSpares index age rest
  | .insert packet :: rest =>
    have := (ring.insert packet.trim).decidableSpares index (age + 1) rest
    inferInstanceAs (Decidable (_ ∧ _))
  | .resize target :: rest =>
    have := (ring.resize target).decidableSpares index age rest
    inferInstanceAs (Decidable (_ ∧ _ ∧ _))

namespace Ledger

variable {ledger : Ledger} {ring : Ring Slot} {index age : Nat}

namespace Shows

theorem slot (described : ledger.Describes ring) (shown : ledger.Shows ring index age) :
    ring.slots[index]? = some ledger.stored[age]? := by
  rw [described.getElem?_slots shown.within, shown.aged, if_pos shown.kept]

theorem opened (described : ledger.Describes ring) (packet : Packet) :
    (ledger.store packet).Shows (ring.insert packet) ring.tail 0 where
  within := by
    rw [Ring.capacity_insert]
    exact ring.inside
  aged := ring.age_write_tail _
  kept := by
    have positive := described.positive
    simp only [Ledger.store]
    omega

theorem store (described : ledger.Describes ring) (shown : ledger.Shows ring index age)
    (packet : Packet) (spared : age + 1 < ring.capacity) :
    (ledger.store packet).Shows (ring.insert packet) index (age + 1) where
  within := by
    rw [Ring.capacity_insert]
    exact shown.within
  aged := by
    rw [← shown.aged]
    exact ring.age_write _ shown.within (shown.aged ▸ spared)
  kept := by
    have kept := shown.kept
    rw [described.capacity] at spared
    simp only [Ledger.store]
    omega

/-- A resize leaves a packet in its slot just in the cases that it retains. -/
theorem resize_iff (shown : ledger.Shows ring index age) (target : Capacity) :
    (ledger.resize target.slots).Shows (ring.resize target) index age ↔
      ring.Retains index target.slots := by
  have kept := shown.kept
  rw [← ring.age_resize_iff target shown.within, shown.aged]
  constructor
  · intro still
    have within := still.within
    rw [Ring.capacity_resize] at within
    have stays : age < min ledger.kept target.slots := still.kept
    exact ⟨within, by omega, still.aged⟩
  · rintro ⟨within, fits, aged⟩
    refine ⟨?_, aged, ?_⟩
    · rwa [Ring.capacity_resize]
    · simp only [Ledger.resize]
      omega

/-- Among different packets, those that stay can be told by the contents of the slot. -/
theorem slot_resize_iff (described : ledger.Describes ring) (shown : ledger.Shows ring index age)
    (target : Capacity) (different : (ledger.stored.take ledger.kept).Nodup) :
    (ring.resize target).slots[index]? = ring.slots[index]? ↔ ring.Retains index target.slots := by
  have resized := described.resize target
  rw [← shown.resize_iff, shown.slot described]
  constructor
  · intro same
    have present : ledger.stored[age]? ≠ none := by
      have recorded := described.recorded
      have kept := shown.kept
      rw [Ne, List.getElem?_eq_none_iff]
      omega
    have within : index < (ring.resize target).capacity := by
      apply Nat.not_le.mp
      intro outside
      rw [Array.getElem?_eq_none outside] at same
      cases same
    rw [resized.getElem?_slots within, Option.some_inj] at same
    split at same
    · rename_i kept
      have earlier : (ring.resize target).age index < ledger.kept :=
        Nat.lt_of_lt_of_le kept (Nat.min_le_left ..)
      have listed : (ledger.stored.take ledger.kept)[(ring.resize target).age index]? =
          (ledger.stored.take ledger.kept)[age]? := by
        rw [List.getElem?_take_of_lt earlier, List.getElem?_take_of_lt shown.kept]
        exact same
      have bound : (ring.resize target).age index < (ledger.stored.take ledger.kept).length := by
        rw [List.length_take_of_le described.recorded]
        exact earlier
      have aged := (List.getElem?_inj bound different).mp listed
      exact ⟨within, aged, aged ▸ kept⟩
    · exact absurd same.symm present
  · intro still
    have held := slot resized still
    exact held

theorem run {changes : List Change} {packet : Packet} (described : ledger.Describes ring)
    (shown : ledger.Shows ring index age) (held : ledger.stored[age]? = some packet)
    (spared : ring.Spares index age changes) :
    let final := changes.foldl Ledger.change ledger
    let since := age + (changes.filterMap Change.packet?).length
    final.Describes (changes.foldl Ring.change ring) ∧
      final.Shows (changes.foldl Ring.change ring) index since ∧
      final.stored[since]? = some packet := by
  induction changes generalizing ledger ring age with
  | nil => exact ⟨described, shown, held⟩
  | cons change rest ih =>
    have next := described.change change
    cases change with
    | keep => exact ih next shown held spared
    | insert other =>
      have result := ih next (shown.store described other.trim spared.1) held spared.2
      simp only [List.filterMap_cons, Change.packet?, List.length_cons]
      rw [Nat.add_comm _ 1, ← Nat.add_assoc]
      exact result
    | resize target =>
      exact ih next ((shown.resize_iff target).mpr spared.1) held spared.2.2

end Shows

end Ledger

/-- A slot serves its packet as long as the resizes retain it and fewer stores follow than the
ring has slots. -/
theorem Cache.run_slot_lifetime {capacity : Nat} {cache : Cache}
    (created : Cache.create capacity = .ok cache) (requests : List Request) :
    let after := cache.run requests
    let ledger := (Ledger.blank capacity).after cache requests
    (∀ index age target, ledger.Shows after.ring index age → Capacity.fault? target = none →
      let resized := (after.next (.resize target)).ring
      ((ledger.next (.resize target) .done).Shows resized index age ↔
        after.ring.Retains index target) ∧
      ((ledger.stored.take ledger.kept).Nodup →
        (resized.slots[index]? = after.ring.slots[index]? ↔ after.ring.Retains index target))) ∧
    ∀ seq payload first index later, after.reply (.store seq payload) = .stored first index →
      let stored := after.next (.store seq payload)
      stored.ring.Spares index 0 (stored.changes later) →
      let final := stored.run later
      (∀ out, ∃ delivery, final.reply (.readAt seq index out) = .delivered delivery ∧
        delivery.Serves payload out) ∧
      ((Request.sent later).length + 1 = final.capacity → ∀ next bytes,
        (∃ start, final.reply (.store next bytes) = .stored start index) ∧
        (final.next (.store next bytes)).ring.slots[index]? =
          some (some (.ofPayload next bytes))) := by
  intro after ledger
  have described : ledger.Describes after.ring := Ledger.describes_run created requests
  refine ⟨?_, ?_⟩
  · intro index age target shown valid resized
    have moved : resized = after.ring.resize ⟨target, valid⟩ := by
      simp only [resized, next, resize, dif_pos valid]
    have followed : ledger.next (.resize target) .done = ledger.resize target := if_pos valid
    rw [moved, followed]
    exact ⟨shown.resize_iff ⟨target, valid⟩, shown.slot_resize_iff described ⟨target, valid⟩⟩
  · intro seq payload first index later reply stored spared final
    obtain ⟨rfl, rfl⟩ := Reply.stored.inj reply
    have account : (ledger.store (.ofPayload seq payload)).Describes stored.ring :=
      described.store _
    have opened : (ledger.store (.ofPayload seq payload)).Shows stored.ring after.ring.tail 0 :=
      .opened described _
    obtain ⟨kept, shown, held⟩ := opened.run account rfl spared
    rw [filterMap_changes, Nat.zero_add] at shown held
    rw [← stored.ring_run later] at kept shown
    have number : (Request.sent later).length = (later.filterMap Request.packet?).length :=
      List.length_reverse
    refine ⟨?_, ?_⟩
    · intro out
      have found : final.ring.at? seq after.ring.tail = some (Packet.trim ⟨seq, payload⟩) := by
        rw [Ring.at?, shown.slot kept, held]
        exact Option.filter_some_pos (decide_eq_true rfl)
      refine ⟨_, rfl, ?_⟩
      rw [found]
      exact Delivery.serves_ofPacket ⟨seq, payload⟩ out
    · intro full next bytes
      rw [number] at full
      have place : after.ring.tail = final.ring.tail :=
        final.ring.eq_tail_of_age shown.within (by rw [shown.aged]; exact full)
      refine ⟨⟨_, by rw [place]; rfl⟩, ?_⟩
      have written := Ledger.Shows.opened kept (.ofPayload next bytes)
      rw [place]
      exact written.slot (kept.store _)

/-- A ring that grows when its tail is at slot 0 keeps a packet in its slot, until
the stores have gone round the larger ring. -/
theorem Cache.run_slot_lifetime_grown :
    let cache : Cache := .new ⟨2, rfl⟩
    let after := cache.run [.store ⟨7⟩ ⟨#[1]⟩]
    let later : List Request := [.resize 5, .store ⟨9⟩ .empty, .store ⟨10⟩ .empty,
      .store ⟨11⟩ .empty, .store ⟨12⟩ .empty]
    let final := (after.next (.store ⟨8⟩ ⟨#[2]⟩)).run later
    Cache.create 2 = .ok cache ∧
      Ledger.Shows ⟨[⟨⟨7⟩, ⟨#[1]⟩⟩], 1, 5⟩ (after.next (.resize 5)).ring 0 0 ∧
      (∃ delivery, final.reply (.readAt ⟨8⟩ 1 ⟨#[0, 0]⟩) = .delivered delivery ∧
        delivery.Serves ⟨#[2]⟩ ⟨#[0, 0]⟩) ∧
      (final.next (.store ⟨13⟩ ⟨#[3]⟩)).ring.slots[1]? = some (some ⟨⟨13⟩, ⟨#[3]⟩⟩) := by
  intro cache after later final
  have created : Cache.create 2 = .ok cache := rfl
  obtain ⟨resized, lifetime⟩ := Cache.run_slot_lifetime created [.store ⟨7⟩ ⟨#[1]⟩]
  have stays := (resized 0 0 5 ⟨by decide +kernel, by decide +kernel, by decide +kernel⟩ rfl).1.mpr
    (by decide +kernel)
  obtain ⟨served, overwritten⟩ := lifetime ⟨8⟩ ⟨#[2]⟩ ⟨7⟩ 1 later (by decide +kernel)
    (by decide +kernel)
  exact ⟨created, stays, served _, (overwritten (by decide +kernel) ⟨13⟩ ⟨#[3]⟩).2⟩

end Retransmission
