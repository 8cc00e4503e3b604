import Retransmission.Proofs.Feedback.Retreat
import Retransmission.Proofs.Log.Reading

/-! The log as an account of the window start and the capacity. From the first store on, every
change to one of them is written to the log, as long as no drain moves the window: each store
leaves a mark, so no later one anchors the window anew without a record. -/

namespace Retransmission

/-- What a reader of the log holds for the window start and the capacity. -/
structure Replay where
  first : Nat
  capacity : Nat
deriving DecidableEq, Repr

namespace Replay

/-- Take a change in. A change that names the value before it is refused when the reader holds
another one. -/
def take? (replay : Replay) : Notice → Option Replay
  | .slid shift => some { replay with first := (replay.first + shift) % 65536 }
  | .restarted first next =>
    if first = replay.first then some { replay with first := next } else none
  | .resized old new => if old = replay.capacity then some { replay with capacity := new } else none

/-- Read a line. Most lines change nothing. -/
def readLine? (replay : Replay) (line : String) : Option Replay :=
  match Notice.read? line with
  | some notice => replay.take? notice
  | none => some replay

def read? (replay : Replay) (log : List String) : Option Replay := log.foldlM readLine? replay

theorem read?_append {replay middle : Replay} {earlier : List String}
    (read : replay.read? earlier = some middle) (later : List String) :
    replay.read? (earlier ++ later) = middle.read? later := by
  rw [Replay.read?, List.foldlM_append]
  exact congrArg (Option.bind · _) read

theorem read?_message (replay : Replay) (event : Event) :
    replay.read? [event.message] = event.notice?.elim (some replay) replay.take? := by
  rw [read?, List.foldlM_cons, readLine?, Notice.read?_message]
  cases event.notice? with
  | none => rfl
  | some notice => cases taken : replay.take? notice <;> simp [taken]

end Replay

def Cache.lines (cache : Cache) (request : Request) : List String :=
  (cache.events request).map Event.message

def Cache.log (cache : Cache) (requests : List Request) : List String :=
  (cache.answers requests).flatMap fun answer => answer.events.map Event.message

/-- What a reader of the log should hold. -/
def Cache.replay (cache : Cache) : Replay := ⟨cache.first.word.toNat, cache.capacity⟩

theorem Window.place_ne_anchor (window : Window) (marked : window.bits ≠ 0) (arrival : SeqNum) :
    window.place arrival ≠ .anchor := by
  rw [place, if_neg marked]
  split
  · simp
  · split
    · simp
    · split <;> simp

namespace Cache

theorem answers_append (cache : Cache) (earlier later : List Request) :
    cache.answers (earlier ++ later) =
      cache.answers earlier ++ (cache.run earlier).answers later := by
  induction earlier generalizing cache with
  | nil => rfl
  | cons request rest ih => exact congrArg (cache.answer request :: ·) (ih (cache.next request))

theorem log_append_singleton (cache : Cache) (requests : List Request) (request : Request) :
    cache.log (requests ++ [request]) =
      cache.log requests ++ (cache.run requests).lines request := by
  rw [log, answers_append, List.flatMap_append]
  simp [log, answers, answer, lines]

variable (cache : Cache)

theorem read?_recordEvents (replay : Replay) (arrival : SeqNum) :
    replay.read? ((cache.counters.recordEvents arrival).map Event.message) = some replay := by
  rw [Counters.recordEvents]
  cases cache.counters.classify arrival with
  | restart highest => exact replay.read?_message (.streamRestarted highest arrival)
  | opening | ahead | late => rfl

/-- A window with marks moves only with a record of it. -/
theorem read?_markEvents (marked : cache.window.bits ≠ 0) (arrival : SeqNum) :
    cache.replay.read? ((cache.window.markEvents arrival).map Event.message) =
      some ⟨(cache.window.mark arrival).first.word.toNat, cache.capacity⟩ := by
  rw [Window.markEvents, Window.mark]
  cases placed : cache.window.place arrival with
  | anchor => exact absurd placed (cache.window.place_ne_anchor marked arrival)
  | restart =>
    refine (Replay.read?_message _ _).trans ?_
    exact if_pos rfl
  | stale | inside => rfl
  | beyond shift =>
    refine (Replay.read?_message _ _).trans ?_
    refine congrArg (fun first => some (Replay.mk first cache.capacity)) ?_
    exact (UInt16.toNat_add _ _).symm

theorem read?_resizeEvents (target : Capacity) :
    cache.replay.read? ((cache.ring.resizeEvents target.slots).map Event.message) =
      some ⟨cache.first.word.toNat, (cache.ring.resize target).capacity⟩ := by
  have resized : cache.replay.read? [(Event.resized cache.ring.capacity target.slots).message] =
      some ⟨cache.first.word.toNat, target.slots⟩ := by
    rw [Replay.read?_message]
    exact if_pos rfl
  rw [Ring.capacity_resize, Ring.resizeEvents]
  split
  · rename_i same
    rw [same]
    rfl
  · split
    · have warned := cache.replay.read?_message
        (.indicesInvalidated cache.ring.capacity target.slots cache.ring.tail)
      exact (Replay.read?_append warned _).trans resized
    · exact resized

theorem read?_resize (target : Nat) :
    cache.replay.read? ((cache.resizeEvents target).map Event.message) =
      some (cache.resize target).replay := by
  by_cases valid : Capacity.fault? target = none
  · rw [resizeEvents, valid, resize, dif_pos valid]
    exact cache.read?_resizeEvents ⟨target, valid⟩
  · obtain ⟨fault, found⟩ := Option.ne_none_iff_exists'.mp valid
    rw [resizeEvents, found, resize, dif_neg valid]
    exact cache.replay.read?_message (.resizeIgnored fault)

/-- The lines of a request tell how it moves the window and the capacity. -/
theorem read?_lines (marked : cache.window.bits ≠ 0) {request : Request}
    (kept : request ≠ .drain) :
    cache.replay.read? (cache.lines request) = some (cache.next request).replay := by
  cases request with
  | store seq payload =>
    have capacity : (cache.next (.store seq payload)).capacity = cache.capacity :=
      Ring.capacity_insert ..
    rw [lines, events, storeEvents, List.map_append,
      Replay.read?_append (cache.read?_recordEvents _ seq), cache.read?_markEvents marked, replay,
      capacity]
    rfl
  | resize target =>
    rw [lines, events, next]
    exact cache.read?_resize target
  | resizeIfAdmitted target =>
    rw [lines, events, next, resizeIfAdmitted]
    by_cases admitted : cache.Admits target
    · have same : cache.resizeIfAdmittedEvents target = cache.resizeEvents target := by
        rw [resizeIfAdmittedEvents, resizeEvents, admitted.1, if_pos admitted]
      rw [if_pos admitted, same]
      exact cache.read?_resize target
    · rw [if_neg admitted, resizeIfAdmittedEvents]
      cases Capacity.fault? target with
      | some fault => exact cache.replay.read?_message (.resizeIgnored fault)
      | none =>
        rw [if_neg admitted]
        rfl
  | drain => exact absurd rfl kept
  | report reset => cases reset <;> rfl
  | expect | read | readAt | readNewest | capacity | first => rfl

theorem bits_run_ne_zero {requests : List Request}
    (stored : requests.filterMap Request.packet? ≠ []) (undrained : .drain ∉ requests) :
    (cache.run requests).window.bits ≠ 0 := by
  intro empty
  obtain ⟨earlier, later, rfl, _⟩ := cache.exists_drain_of_empty stored empty
  exact undrained (List.mem_append_right earlier List.mem_cons_self)

/-- The first packet places the window, and no line tells of it. -/
theorem read?_log_opening {slots : Nat} (created : create slots = .ok cache) (seq : SeqNum)
    (payload : ByteArray) :
    Replay.read? ⟨seq.word.toNat, slots⟩ (cache.log [.store seq payload]) =
      some (cache.run [.store seq payload]).replay := by
  obtain ⟨valid, rfl⟩ := create_eq_ok_iff.mp created
  have capacity :
      ((Ring.empty ⟨slots, valid⟩).insert (.ofPayload seq payload)).capacity = slots := by
    rw [Ring.capacity_insert, Ring.capacity_empty]
  exact congrArg (fun slots => some (Replay.mk seq.word.toNat slots)) capacity.symm

end Cache

/-- In every run that begins with a store on a new cache and drains nothing, the log tells the
window start and the capacity. -/
theorem Cache.run_log_replays {capacity : Nat} {cache : Cache}
    (created : Cache.create capacity = .ok cache) (seq : SeqNum) (payload : ByteArray)
    {requests : List Request} (undrained : .drain ∉ requests) :
    let stream := .store seq payload :: requests
    let final := cache.run stream
    Replay.read? ⟨seq.word.toNat, capacity⟩ (cache.log stream) =
      some ⟨final.first.word.toNat, final.capacity⟩ := by
  intro stream final
  induction requests using List.reverseRecOn with
  | nil => exact cache.read?_log_opening created seq payload
  | append_singleton earlier request ih =>
    rw [List.mem_append, List.mem_singleton, not_or] at undrained
    obtain ⟨before, kept⟩ := undrained
    let state := cache.run (.store seq payload :: earlier)
    have marked : state.window.bits ≠ 0 := by
      apply cache.bits_run_ne_zero
      · simp [Request.packet?]
      · simp [before]
    calc Replay.read? ⟨seq.word.toNat, capacity⟩ (cache.log stream)
      _ = Replay.read? ⟨seq.word.toNat, capacity⟩
            (cache.log (.store seq payload :: earlier) ++ state.lines request) :=
          congrArg _ (cache.log_append_singleton (.store seq payload :: earlier) request)
      _ = state.replay.read? (state.lines request) := Replay.read?_append (ih before) _
      _ = some (state.next request).replay := state.read?_lines marked (Ne.symm kept)
      _ = some final.replay := by
          simp only [final, stream, ← List.cons_append, run_append]
          rfl

/-- A slide past the end of the cycle, a shrink below the tail and a restart. -/
theorem Cache.run_log_replays_restarted :
    let cache : Cache := .new ⟨4, rfl⟩
    let later : List Request :=
      [.store ⟨40⟩ .empty, .resize 2, .report true, .resize 0, .store ⟨50000⟩ .empty]
    let log := cache.log (.store ⟨65530⟩ .empty :: later)
    Cache.create 4 = .ok cache ∧
      log =
        ["arrival window slide by 15 to seqno 40",
          "packet cache shrink 4 -> 2 below tail 2, slot indices invalidated",
          "packet cache resized 4 -> 2",
          "packet cache resize ignored: packet cache: capacity must be at least 1",
          "sequence discontinuity: 40 -> 50000, re-anchoring",
          "arrival window reset: first 9 -> 50000"] ∧
      Replay.read? ⟨65530, 4⟩ log = some ⟨50000, 2⟩ := by
  intro cache later log
  have created : Cache.create 4 = .ok cache := rfl
  have undrained : .drain ∉ later := by decide
  have first : (cache.run (.store ⟨65530⟩ .empty :: later)).first = ⟨50000⟩ := by decide +kernel
  have capacity : (cache.run (.store ⟨65530⟩ .empty :: later)).capacity = 2 := by decide +kernel
  have read := Cache.run_log_replays created ⟨65530⟩ .empty undrained
  simp only [first, capacity] at read
  exact ⟨created, by decide +kernel, read⟩

end Retransmission
