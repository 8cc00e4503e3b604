import Retransmission.Cache.Basic

/-! A cache as a machine that answers requests one at a time. For each request
there is the reply, the log records and the next state, all three read off the
state in which the request is met. -/

namespace Retransmission

inductive Request where
  | store (seq : SeqNum) (payload : ByteArray)
  | expect (count : UInt32)
  /-- Read the packet with a number, wherever it lies. -/
  | read (seq : SeqNum) (buffer : ByteArray)
  /-- Read the packet with a number from the slot it was stored in. -/
  | readAt (seq : SeqNum) (index : Nat) (buffer : ByteArray)
  | readNewest (buffer : ByteArray)
  | capacity
  | first
  | resize (target : Nat)
  | resizeIfAdmitted (target : Nat)
  | drain
  /-- Report the statistics, and begin a new period when `reset` is set. -/
  | report (reset : Bool)
deriving DecidableEq

/-- The packet that a request brings in, as it was sent. -/
def Request.packet? : Request → Option Packet
  | .store seq payload => some ⟨seq, payload⟩
  | _ => none

inductive Reply where
  | done
  /-- The window start after the arrival, and the slot that holds the packet. -/
  | stored (first : SeqNum) (index : Nat)
  | delivered (delivery : Delivery)
  | capacity (slots : Nat)
  | first (seq : SeqNum)
  | admitted (resized : Bool)
  | drained (drain : Drain)
  | reported (report : Report)
deriving DecidableEq

namespace Cache

/-- What the caller gets. -/
def reply (cache : Cache) : Request → Reply
  | .store seq _ => .stored (cache.window.mark seq).first cache.ring.tail
  | .expect _ | .resize _ => .done
  | .read seq buffer => .delivered (.ofFound (cache.ring.find? seq) buffer)
  | .readAt seq index buffer => .delivered (.ofFound (cache.ring.at? seq index) buffer)
  | .readNewest buffer => .delivered (.ofFound cache.ring.newest? buffer)
  | .capacity => .capacity cache.capacity
  | .first => .first cache.first
  | .resizeIfAdmitted target => .admitted (decide (cache.Admits target))
  | .drain => .drained cache.window.frontBlock
  | .report _ => .reported cache.counters.report

def events (cache : Cache) : Request → List Event
  | .store seq _ => cache.storeEvents seq
  | .resize target => cache.resizeEvents target
  | .resizeIfAdmitted target => cache.resizeIfAdmittedEvents target
  | .expect _ | .read .. | .readAt .. | .readNewest _ | .capacity | .first | .drain
  | .report _ => []

/-- The state that a request leaves behind. -/
def next (cache : Cache) : Request → Cache
  | .store seq payload => cache.store seq payload
  | .expect count => { cache with counters := cache.counters.expect count }
  | .resize target => cache.resize target
  | .resizeIfAdmitted target => cache.resizeIfAdmitted target
  | .drain => { cache with window := cache.window.dropBlock }
  | .report reset =>
    if reset then { cache with counters := cache.counters.closePeriod } else cache
  | .read .. | .readAt .. | .readNewest _ | .capacity | .first => cache

end Cache

/-- What a caller and the log see of one request. -/
structure Answer where
  reply : Reply
  events : List Event
deriving DecidableEq

namespace Cache

def answer (cache : Cache) (request : Request) : Answer :=
  ⟨cache.reply request, cache.events request⟩

/-- Answer a request and move on. The answer is complete before the state changes. -/
def step (cache : Cache) (request : Request) : Answer × Cache :=
  let answer := cache.answer request
  (answer, cache.next request)

def run (cache : Cache) (requests : List Request) : Cache :=
  requests.foldl next cache

def answers (cache : Cache) : List Request → List Answer
  | [] => []
  | request :: rest => cache.answer request :: (cache.next request).answers rest

@[simp] theorem run_nil (cache : Cache) : cache.run [] = cache :=
  rfl

@[simp] theorem run_cons (cache : Cache) (request : Request) (rest : List Request) :
    cache.run (request :: rest) = (cache.next request).run rest :=
  rfl

theorem run_append (cache : Cache) (earlier later : List Request) :
    cache.run (earlier ++ later) = (cache.run earlier).run later :=
  List.foldl_append

end Cache

end Retransmission
