import Retransmission.Feedback.Drain
import Retransmission.Reception.Counters
import Retransmission.Ring.Packets
import Retransmission.Ring.Resize

namespace Retransmission

structure Cache where
  counters : Counters
  window : Window
  ring : Ring Slot
deriving DecidableEq

namespace Cache

def new (capacity : Capacity) : Cache := ⟨.start, .empty, .empty capacity⟩

def create (slots : Nat) : Except CapacityError Cache :=
  match fault : Capacity.fault? slots with
  | some cause => .error cause
  | none => .ok (.new ⟨slots, fault⟩)

theorem create_eq_ok_iff {slots : Nat} {cache : Cache} :
    create slots = .ok cache ↔ ∃ valid, cache = .new ⟨slots, valid⟩ := by
  rw [create]
  split
  · rename_i fault
    simp [fault]
  · rename_i valid
    simp [valid, eq_comm]

theorem counters_of_create {slots : Nat} {cache : Cache} (created : create slots = .ok cache) :
    cache.counters = .start := by
  obtain ⟨_, rfl⟩ := create_eq_ok_iff.mp created
  rfl

theorem window_of_create {slots : Nat} {cache : Cache} (created : create slots = .ok cache) :
    cache.window = .empty := by
  obtain ⟨_, rfl⟩ := create_eq_ok_iff.mp created
  rfl

def capacity (cache : Cache) : Nat := cache.ring.capacity

def first (cache : Cache) : SeqNum := cache.window.first

/-- Count, mark and keep a packet that has arrived. -/
def store (cache : Cache) (seq : SeqNum) (payload : ByteArray) : Cache where
  counters := cache.counters.record seq
  window := cache.window.mark seq
  ring := cache.ring.insert (.ofPayload seq payload)

def storeEvents (cache : Cache) (seq : SeqNum) : List Event :=
  cache.counters.recordEvents seq ++ cache.window.markEvents seq

/-- Change the number of slots, if the target is one that a ring can have. -/
def resize (cache : Cache) (target : Nat) : Cache :=
  if valid : Capacity.fault? target = none then
    { cache with ring := cache.ring.resize ⟨target, valid⟩ }
  else cache

def resizeEvents (cache : Cache) (target : Nat) : List Event :=
  match Capacity.fault? target with
  | some fault => [.resizeIgnored fault]
  | none => cache.ring.resizeEvents target

/-- Whether a resize is worth making and costs few slot indices. -/
def Admits (cache : Cache) (target : Nat) : Prop :=
  Capacity.fault? target = none ∧ ¬ cache.ring.NearTarget target ∧ ¬ cache.ring.LateTail target

instance (cache : Cache) (target : Nat) : Decidable (cache.Admits target) :=
  inferInstanceAs (Decidable (_ ∧ _))

def resizeIfAdmitted (cache : Cache) (target : Nat) : Cache :=
  if cache.Admits target then cache.resize target else cache

def resizeIfAdmittedEvents (cache : Cache) (target : Nat) : List Event :=
  match Capacity.fault? target with
  | some fault => [.resizeIgnored fault]
  | none => if cache.Admits target then cache.ring.resizeEvents target else []

@[simp] theorem counters_resize (cache : Cache) (target : Nat) :
    (cache.resize target).counters = cache.counters := by
  unfold resize
  split <;> rfl

@[simp] theorem window_resize (cache : Cache) (target : Nat) :
    (cache.resize target).window = cache.window := by
  unfold resize
  split <;> rfl

@[simp] theorem counters_resizeIfAdmitted (cache : Cache) (target : Nat) :
    (cache.resizeIfAdmitted target).counters = cache.counters := by
  unfold resizeIfAdmitted
  split <;> simp

@[simp] theorem window_resizeIfAdmitted (cache : Cache) (target : Nat) :
    (cache.resizeIfAdmitted target).window = cache.window := by
  unfold resizeIfAdmitted
  split <;> simp

end Cache

/-- The choices open to the owner of a new cache. -/
structure Config where
  capacity : Nat := Capacity.standard
deriving DecidableEq, Repr

def Config.create (config : Config) : Except CapacityError Cache :=
  Cache.create config.capacity

end Retransmission
