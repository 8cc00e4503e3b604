import Retransmission.Proofs.Cache.Changes
import Retransmission.Proofs.Ring.Order

/-! The account of a run as a list of stored packets. Every request moves the
ring and the account alike, so a ring of any history is read off its account. -/

namespace Retransmission

/-- The packets stored so far with the newest first, how many of the newest are
still kept, and the number of slots for them. -/
structure Ledger where
  stored : List Packet
  kept : Nat
  capacity : Nat
deriving DecidableEq

namespace Ledger

def blank (capacity : Nat) : Ledger := ⟨[], 0, capacity⟩

/-- One more packet is kept, unless all slots were taken already. -/
def store (ledger : Ledger) (packet : Packet) : Ledger where
  stored := packet :: ledger.stored
  kept := min (ledger.kept + 1) ledger.capacity
  capacity := ledger.capacity

/-- The newest packets stay, and a packet that is given up never comes back. -/
def resize (ledger : Ledger) (target : Nat) : Ledger :=
  { ledger with kept := min ledger.kept target, capacity := target }

/-- The account after a request. The reply tells whether an optional resize was made. -/
def next (ledger : Ledger) : Request → Reply → Ledger
  | .store seq payload, _ => ledger.store ⟨seq, payload.extract 0 1500⟩
  | .resize target, _ => if Capacity.fault? target = none then ledger.resize target else ledger
  | .resizeIfAdmitted target, .admitted true => ledger.resize target
  | _, _ => ledger

def after (ledger : Ledger) (cache : Cache) : List Request → Ledger
  | [] => ledger
  | request :: rest =>
    (ledger.next request (cache.reply request)).after (cache.next request) rest

/-- The slots from the newest to the oldest: the kept packets, then the empty slots. -/
def slots (ledger : Ledger) : List (Option Packet) :=
  (ledger.stored.take ledger.kept).map some ++
    List.replicate (ledger.capacity - ledger.kept) none

/-- A ring that holds what the account says, in the same order. -/
structure Describes (ledger : Ledger) (ring : Ring Slot) : Prop where
  capacity : ring.capacity = ledger.capacity
  recorded : ledger.kept ≤ ledger.stored.length
  fits : ledger.kept ≤ ledger.capacity
  order : ring.newestFirst = ledger.slots

private theorem length_kept (ledger : Ledger) (recorded : ledger.kept ≤ ledger.stored.length) :
    ((ledger.stored.take ledger.kept).map some).length = ledger.kept := by
  rw [List.length_map, List.length_take_of_le recorded]

theorem take_slots (ledger : Ledger) (count : Nat) (recorded : ledger.kept ≤ ledger.stored.length) :
    ledger.slots.take count =
      (ledger.stored.take (min count ledger.kept)).map some ++
        List.replicate (min count ledger.capacity - ledger.kept) none := by
  have length := ledger.length_kept recorded
  have empty : min (count - ledger.kept) (ledger.capacity - ledger.kept) =
      min count ledger.capacity - ledger.kept := by omega
  rw [slots, List.take_append, ← List.map_take, List.take_take, length, List.take_replicate, empty]

theorem getElem?_slots (ledger : Ledger) {steps : Nat}
    (recorded : ledger.kept ≤ ledger.stored.length) (within : steps < ledger.capacity) :
    ledger.slots[steps]? = some (if steps < ledger.kept then ledger.stored[steps]? else none) := by
  have length := ledger.length_kept recorded
  rw [slots]
  split
  · rename_i kept
    rw [List.getElem?_append_left (by rwa [length]), List.getElem?_map,
      List.getElem?_take_of_lt kept, List.getElem?_eq_getElem (by omega)]
    rfl
  · rename_i spare
    rw [List.getElem?_append_right (by omega), length, List.getElem?_replicate_of_lt (by omega)]

def change (ledger : Ledger) : Change → Ledger
  | .keep => ledger
  | .insert packet => ledger.store packet.trim
  | .resize target => ledger.resize target.slots

theorem next_reply (ledger : Ledger) (cache : Cache) (request : Request) :
    ledger.next request (cache.reply request) = ledger.change (cache.change request) := by
  cases request with
  | resize target =>
    by_cases valid : Capacity.fault? target = none <;>
      simp [next, Cache.change, change, valid]
  | resizeIfAdmitted target =>
    by_cases admitted : cache.Admits target <;>
      simp [next, Cache.reply, Cache.change, change, admitted]
  | _ => rfl

theorem after_eq (ledger : Ledger) (cache : Cache) (requests : List Request) :
    ledger.after cache requests = (cache.changes requests).foldl change ledger := by
  induction requests generalizing ledger cache with
  | nil => rfl
  | cons request rest ih => rw [after, ih, next_reply, Cache.changes, List.foldl_cons]

theorem stored_change (ledger : Ledger) (change : Change) :
    (ledger.change change).stored = change.packet?.toList.map Packet.trim ++ ledger.stored := by
  cases change <;> rfl

/-- The account lists what was sent, cut to what a ring keeps. -/
theorem stored_after (ledger : Ledger) (cache : Cache) (requests : List Request) :
    (ledger.after cache requests).stored =
      (Request.sent requests).map Packet.trim ++ ledger.stored := by
  induction requests generalizing ledger cache with
  | nil => rfl
  | cons request rest ih =>
    rw [after, ih, next_reply, stored_change, Cache.packet?_change, Request.sent_cons,
      List.map_append, List.append_assoc]

theorem describes_blank (capacity : Capacity) :
    (blank capacity.slots).Describes (.empty capacity) where
  capacity := Ring.capacity_empty capacity
  recorded := Nat.le_refl _
  fits := Nat.zero_le _
  order := by
    rw [Ring.empty, Ring.newestFirst_filled]
    rfl

namespace Describes

variable {ledger : Ledger} {ring : Ring Slot}

theorem positive (described : ledger.Describes ring) : 0 < ledger.capacity :=
  described.capacity ▸ ring.positive

theorem store (described : ledger.Describes ring) (packet : Packet) :
    (ledger.store packet).Describes (ring.insert packet) where
  capacity := (ring.capacity_insert packet).trans described.capacity
  recorded := by
    have recorded := described.recorded
    simp only [Ledger.store, List.length_cons]
    omega
  fits := Nat.min_le_right ..
  order := by
    have positive := described.positive
    have fits := described.fits
    rw [Ring.newestFirst_insert, List.dropLast_eq_take, ring.length_newestFirst, described.order,
      described.capacity, ledger.take_slots _ described.recorded]
    simp only [slots, Ledger.store]
    have kept : min (ledger.kept + 1) ledger.capacity =
        min (ledger.capacity - 1) ledger.kept + 1 := by omega
    rw [kept, List.take_succ_cons, List.map_cons, List.cons_append]
    congr 3
    omega

theorem resize (described : ledger.Describes ring) (target : Capacity) :
    (ledger.resize target.slots).Describes (ring.resize target) where
  capacity := ring.capacity_resize target
  recorded := Nat.le_trans (Nat.min_le_left ..) described.recorded
  fits := Nat.min_le_right ..
  order := by
    have fits := described.fits
    rw [ring.newestFirst_resize, described.order, described.capacity,
      ledger.take_slots _ described.recorded, List.append_assoc, Option.default_eq_none,
      List.replicate_append_replicate]
    simp only [slots, Ledger.resize]
    rw [Nat.min_comm]
    congr 2
    omega

theorem change (described : ledger.Describes ring) (change : Change) :
    (ledger.change change).Describes (ring.change change) := by
  cases change with
  | keep => exact described
  | insert packet => exact described.store packet.trim
  | resize target => exact described.resize target

theorem changes (described : ledger.Describes ring) (changes : List Change) :
    (changes.foldl Ledger.change ledger).Describes (changes.foldl Ring.change ring) := by
  induction changes generalizing ledger ring with
  | nil => exact described
  | cons change rest ih => exact ih (described.change change)

end Describes

theorem describes_run {capacity : Nat} {cache : Cache}
    (created : Cache.create capacity = .ok cache) (requests : List Request) :
    ((blank capacity).after cache requests).Describes (cache.run requests).ring := by
  obtain ⟨valid, rfl⟩ := Cache.create_eq_ok_iff.mp created
  rw [after_eq, Cache.ring_run]
  exact (describes_blank ⟨capacity, valid⟩).changes _

end Ledger

/-- In every run on a new cache, the slots read backwards from the tail are the
kept packets of the account in order, and then empty. -/
theorem Cache.run_refines_ledger {capacity : Nat} {cache : Cache}
    (created : Cache.create capacity = .ok cache) (requests : List Request) :
    let ring := (cache.run requests).ring
    let ledger := (Ledger.blank capacity).after cache requests
    ring.capacity = ledger.capacity ∧ ring.tail < ring.capacity ∧
      ledger.kept ≤ ledger.stored.length ∧ ledger.kept ≤ ring.capacity ∧
      ∀ steps < ring.capacity,
        ring.slots[(ring.tail + ring.capacity - 1 - steps) % ring.capacity]? =
          some (if steps < ledger.kept then ledger.stored[steps]? else none) := by
  intro ring ledger
  have described : ledger.Describes ring := Ledger.describes_run created requests
  refine ⟨described.capacity, ring.inside, described.recorded, ?_, ?_⟩
  · exact described.capacity ▸ described.fits
  · intro steps within
    rw [← ring.getElem?_newestFirst within, described.order]
    exact ledger.getElem?_slots described.recorded (described.capacity ▸ within)

/-- A shrink gives up the older packet, and growing again opens an empty slot in its place. -/
theorem Cache.run_refines_ledger_regrown :
    let cache : Cache := .new ⟨2, rfl⟩
    let requests : List Request :=
      [.store ⟨7⟩ ⟨#[1]⟩, .store ⟨8⟩ ⟨#[2]⟩, .resize 1, .resize 3]
    Cache.create 2 = .ok cache ∧ (cache.run requests).ring.slots[0]? = some (some ⟨⟨8⟩, ⟨#[2]⟩⟩) ∧
      (cache.run requests).ring.slots[2]? = some none := by
  intro cache requests
  have created : Cache.create 2 = .ok cache := rfl
  have slots := (Cache.run_refines_ledger created requests).2.2.2.2
  have ledger : (Ledger.blank 2).after cache requests =
      ⟨[⟨⟨8⟩, ⟨#[2]⟩⟩, ⟨⟨7⟩, ⟨#[1]⟩⟩], 1, 3⟩ := by decide +kernel
  have capacity : (cache.run requests).ring.capacity = 3 := by decide +kernel
  have tail : (cache.run requests).ring.tail = 1 := by decide +kernel
  simp only [ledger, capacity, tail] at slots
  exact ⟨created, slots 0 (by decide), slots 1 (by decide)⟩

end Retransmission
