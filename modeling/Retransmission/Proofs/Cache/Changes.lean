import Retransmission.Cache.Request

/-! The requests of a run, reduced to what they do to the ring: nothing, one write,
or one resize that takes effect. Everything that follows the ring is a fold over
these changes. -/

namespace Retransmission

/-- The packet as a ring keeps it. -/
def Packet.trim (packet : Packet) : Packet := ⟨packet.seq, packet.payload.extract 0 1500⟩

theorem Packet.size_payload_trim (packet : Packet) :
    packet.trim.payload.size = min packet.payload.size 1500 :=
  size_payload_ofPayload packet.seq packet.payload

inductive Change where
  | keep
  | insert (packet : Packet)
  | resize (target : Capacity)
deriving DecidableEq

def Change.packet? : Change → Option Packet
  | .insert packet => some packet
  | .keep | .resize _ => none

def Ring.change (ring : Ring Slot) : Change → Ring Slot
  | .keep => ring
  | .insert packet => ring.insert packet.trim
  | .resize target => ring.resize target

/-- The packets of a run with the newest first, as they were sent. -/
def Request.sent (requests : List Request) : List Packet :=
  (requests.filterMap packet?).reverse

theorem Request.sent_cons (request : Request) (rest : List Request) :
    sent (request :: rest) = sent rest ++ request.packet?.toList := by
  cases brought : request.packet? <;> simp [sent, brought]

namespace Cache

def change (cache : Cache) : Request → Change
  | .store seq payload => .insert ⟨seq, payload⟩
  | .resize target =>
    if valid : Capacity.fault? target = none then .resize ⟨target, valid⟩ else .keep
  | .resizeIfAdmitted target =>
    if admitted : cache.Admits target then .resize ⟨target, admitted.1⟩ else .keep
  | _ => .keep

def changes (cache : Cache) : List Request → List Change
  | [] => []
  | request :: rest => cache.change request :: (cache.next request).changes rest

theorem changes_append (cache : Cache) (earlier later : List Request) :
    cache.changes (earlier ++ later) =
      cache.changes earlier ++ (cache.run earlier).changes later := by
  induction earlier generalizing cache with
  | nil => rfl
  | cons request rest ih => rw [List.cons_append, changes, changes, ih, run_cons, List.cons_append]

theorem packet?_change (cache : Cache) (request : Request) :
    (cache.change request).packet? = request.packet? := by
  cases request with
  | resize | resizeIfAdmitted =>
    simp only [change]
    split <;> rfl
  | _ => rfl

theorem filterMap_changes (cache : Cache) (requests : List Request) :
    (cache.changes requests).filterMap Change.packet? = requests.filterMap Request.packet? := by
  induction requests generalizing cache with
  | nil => rfl
  | cons request rest ih =>
    rw [changes, List.filterMap_cons, List.filterMap_cons, packet?_change, ih]

theorem ring_next (cache : Cache) (request : Request) :
    (cache.next request).ring = cache.ring.change (cache.change request) := by
  cases request with
  | resize target =>
    by_cases valid : Capacity.fault? target = none <;>
      simp [next, change, Ring.change, resize, valid]
  | resizeIfAdmitted target =>
    by_cases admitted : cache.Admits target
    · simp [next, change, Ring.change, resizeIfAdmitted, resize, admitted, admitted.1]
    · simp [next, change, Ring.change, resizeIfAdmitted, admitted]
  | report reset => cases reset <;> rfl
  | store | expect | read | readAt | readNewest | capacity | first | drain => rfl

theorem ring_run (cache : Cache) (requests : List Request) :
    (cache.run requests).ring = (cache.changes requests).foldl Ring.change cache.ring := by
  induction requests generalizing cache with
  | nil => rfl
  | cons request rest ih => rw [run_cons, ih, ring_next, changes, List.foldl_cons]

end Cache

end Retransmission
