import Mathlib.Data.List.Forall2
import Retransmission.Proofs.Reception.Recording
import Retransmission.Proofs.Ring.Memory

namespace Retransmission

section Numbers

variable (number reference : SeqNum) (turn : UInt16)

namespace SeqNum

theorem behind_advance_iff :
    (number.advance turn).Behind (reference.advance turn) ↔ number.Behind reference := by
  rw [Behind, Behind, aheadOf_advance_advance]

theorem outOfRange_advance_iff :
    (number.advance turn).OutOfRange (reference.advance turn) ↔ number.OutOfRange reference := by
  rw [OutOfRange, OutOfRange, behind_advance_iff, aheadOf_advance_advance]

theorem advance_right_comm (distance : UInt16) :
    (number.advance turn).advance distance = (number.advance distance).advance turn := by
  rw [advance_advance, advance_advance, UInt16.add_comm]

end SeqNum

end Numbers

variable (turn : UInt16)

/-- The same request in the moved stream. -/
def Request.rotate : Request → Request
  | .store seq payload => .store (seq.advance turn) payload
  | .read seq buffer => .read (seq.advance turn) buffer
  | .readAt seq index buffer => .readAt (seq.advance turn) index buffer
  | request => request

/-- Figures of a stream and of the moved one. They agree except in the highest
number, of which the lower half is moved. -/
structure Report.Rotated (report moved : Report) : Prop where
  expected : moved.expected = report.expected
  lost : moved.lost = report.lost
  totalLost : moved.totalLost = report.totalLost
  extendedSeq : moved.extendedSeq.toUInt16 = report.extendedSeq.toUInt16 + turn

structure Drain.Rotated (drain moved : Drain) : Prop where
  hasLoss : moved.hasLoss = drain.hasLoss
  mask : moved.mask = drain.mask
  seq : moved.seq = drain.seq.advance turn
  missing : moved.nack?.map Nack.missing =
    drain.nack?.map fun entry => entry.missing.map fun seq => seq.advance turn

/-- Replies to a request and to the same one in the moved stream. -/
inductive Reply.Rotated : Reply → Reply → Prop where
  | done : Rotated .done .done
  | stored : Rotated (.stored start index) (.stored (start.advance turn) index)
  | delivered : Rotated (.delivered delivery) (.delivered delivery)
  | capacity : Rotated (.capacity slots) (.capacity slots)
  | first : Rotated (.first seq) (.first (seq.advance turn))
  | admitted : Rotated (.admitted resized) (.admitted resized)
  | drained (rotated : drain.Rotated turn moved) : Rotated (.drained drain) (.drained moved)
  | reported (rotated : report.Rotated turn moved) : Rotated (.reported report) (.reported moved)

namespace Window

def rotate (window : Window) : Window := { window with first := window.first.advance turn }

theorem place_rotate (window : Window) (arrival : SeqNum) :
    (window.rotate turn).place (arrival.advance turn) = window.place arrival := by
  simp only [place, rotate, SeqNum.outOfRange_advance_iff, SeqNum.behind_advance_iff,
    SeqNum.aheadOf_advance_advance]

theorem mark_rotate (window : Window) (arrival : SeqNum) :
    (window.rotate turn).mark (arrival.advance turn) = (window.mark arrival).rotate turn := by
  simp only [mark, place_rotate]
  cases window.place arrival with
  | anchor | restart | stale | inside => rfl
  | beyond shift => simp only [rotate, SeqNum.advance_right_comm]

/-- An empty window has no place yet that could be moved. -/
theorem mark_empty_rotate (arrival : SeqNum) :
    empty.mark (arrival.advance turn) = (empty.mark arrival).rotate turn := by
  simp [mark, place, empty, rotate]

theorem dropBlock_rotate (window : Window) :
    (window.rotate turn).dropBlock = window.dropBlock.rotate turn := by
  simp only [dropBlock, rotate, SeqNum.advance_right_comm]

end Window

theorem Nack.missing_rotate (entry : Nack) :
    missing ⟨entry.packetId.advance turn, entry.mask⟩ =
      entry.missing.map fun seq => seq.advance turn := by
  simp only [missing, following, List.map_cons, List.map_map]
  congr 1
  apply List.map_congr_left
  intro bit _
  exact SeqNum.advance_right_comm ..

theorem Drain.rotated (drain : Drain) :
    drain.Rotated turn { drain with seq := drain.seq.advance turn } := by
  refine ⟨rfl, rfl, rfl, ?_⟩
  simp only [nack?]
  split
  · exact congrArg some (Nack.missing_rotate turn ⟨drain.seq, drain.mask⟩)
  · rfl

theorem Window.frontBlock_rotate (window : Window) :
    (window.rotate turn).frontBlock =
      { window.frontBlock with seq := window.frontBlock.seq.advance turn } := by
  have gaps : (window.rotate turn).gaps = window.gaps := rfl
  simp only [frontBlock, gaps]
  split
  · rfl
  · simp only [rotate, SeqNum.advance_right_comm]

def Packet.rotate (packet : Packet) : Packet := { packet with seq := packet.seq.advance turn }

theorem Delivery.ofFound_rotate (found : Option Packet) (out : ByteArray) :
    ofFound (found.map (Packet.rotate turn)) out = ofFound found out := by
  cases found <;> rfl

namespace Ring

/-- The ring with all its packets in the moved stream. Unused slots stay unused. -/
def rotate (ring : Ring Slot) : Ring Slot := ring.map (Option.map (Packet.rotate turn))

@[simp] theorem capacity_rotate (ring : Ring Slot) : (ring.rotate turn).capacity = ring.capacity :=
  ring.capacity_map _

theorem empty_rotate (capacity : Capacity) : (empty capacity).rotate turn = empty capacity :=
  map_filled ..

theorem insert_rotate (ring : Ring Slot) (packet : Packet) :
    (ring.rotate turn).insert (packet.rotate turn) = (ring.insert packet).rotate turn :=
  (ring.map_insert _ packet).symm

theorem resize_rotate (ring : Ring Slot) (target : Capacity) :
    (ring.rotate turn).resize target = (ring.resize target).rotate turn :=
  (ring.map_resize target rfl).symm

theorem newest?_rotate (ring : Ring Slot) :
    (ring.rotate turn).newest? = ring.newest?.map (Packet.rotate turn) := by
  have place : (ring.rotate turn).beforeTail = ring.beforeTail := by
    rw [beforeTail, capacity_rotate]
    rfl
  rw [newest?, newest?, place, rotate, map, Array.getElem?_map, Option.join_map_eq_map_join]

theorem at?_rotate (ring : Ring Slot) (seq : SeqNum) (index : Nat) :
    (ring.rotate turn).at? (seq.advance turn) index =
      (ring.at? seq index).map (Packet.rotate turn) := by
  have sought : (fun packet : Packet => decide (packet.seq = seq.advance turn)) ∘
      Packet.rotate turn = fun packet => decide (packet.seq = seq) := by
    funext packet
    exact decide_eq_decide.mpr (SeqNum.advance_inj)
  rw [at?, at?, rotate, map, Array.getElem?_map, Option.join_map_eq_map_join, Option.filter_map,
    sought]

theorem find?_rotate (ring : Ring Slot) (seq : SeqNum) :
    (ring.rotate turn).find? (seq.advance turn) =
      (ring.find? seq).map (Packet.rotate turn) := by
  have sought : (fun packet : Packet =>
      decide (packet.payload.size ≠ 0 ∧ packet.seq = seq.advance turn)) ∘ Packet.rotate turn =
        fun packet => decide (packet.payload.size ≠ 0 ∧ packet.seq = seq) := by
    funext packet
    exact decide_eq_decide.mpr (and_congr_right fun _ => SeqNum.advance_inj)
  rw [find?, find?, rotate, map, Array.findSome?_map, Array.map_findSome?]
  congr 1
  funext slot
  rw [Function.comp_apply, Function.comp_apply, Option.filter_map, sought]

end Ring

namespace Counters

/-- Counters of a stream that has begun and of the moved one. -/
structure Rotated (counters moved : Counters) : Prop where
  highest : ∃ number, counters.highest = some number ∧
    moved.highest = some (number.advance turn)
  expected : moved.expected = counters.expected
  lost : moved.lost = counters.lost
  lostBefore : moved.lostBefore = counters.lostBefore

variable {turn} {counters moved : Counters}

/-- Only whether an arrival ahead passes the end of the cycle can be told apart. -/
theorem Rotated.record (rotated : counters.Rotated turn moved) (arrival : SeqNum) :
    (counters.record arrival).Rotated turn (moved.record (arrival.advance turn)) := by
  obtain ⟨⟨number, known, movedKnown⟩, expected, lost, lostBefore⟩ := rotated
  simp only [Counters.record, classify, known, movedKnown, SeqNum.outOfRange_advance_iff,
    SeqNum.behind_advance_iff, SeqNum.aheadOf_advance_advance]
  by_cases far : arrival.OutOfRange number
  · simp only [if_pos far]
    exact ⟨⟨arrival, rfl, rfl⟩, congrArg (· + 1) expected, lost, lostBefore⟩
  · by_cases ahead : number.Behind arrival
    · simp only [if_neg far, if_pos ahead]
      exact ⟨⟨arrival, rfl, rfl⟩, by rw [expected], by rw [lost], lostBefore⟩
    · simp only [if_neg far, if_neg ahead]
      exact ⟨⟨number, rfl, rfl⟩, expected, by rw [lost], lostBefore⟩

theorem toUInt16_extendedSeq (counters : Counters) :
    counters.extendedSeq.toUInt16 = (counters.highest.getD ⟨0⟩).word := by
  apply UInt16.toNat_inj.mp
  have halves := counters.toNat_extendedSeq
  have bound := (counters.highest.getD ⟨0⟩).word.toNat_lt
  rw [UInt32.toNat_toUInt16]
  omega

theorem Rotated.report (rotated : counters.Rotated turn moved) :
    counters.report.Rotated turn moved.report where
  expected := rotated.expected
  lost := rotated.lost
  totalLost := by
    simp only [Counters.report, rotated.lost, rotated.lostBefore]
  extendedSeq := by
    obtain ⟨number, known, movedKnown⟩ := rotated.highest
    simp only [Counters.report, toUInt16_extendedSeq, known, movedKnown, Option.getD_some]
    rfl

end Counters

namespace Cache

/-- Caches that saw a stream, of one packet at least, and the moved stream. -/
structure Rotated (cache moved : Cache) : Prop where
  counters : cache.counters.Rotated turn moved.counters
  window : moved.window = cache.window.rotate turn
  ring : moved.ring = cache.ring.rotate turn

variable {turn} {cache moved : Cache}

theorem Rotated.admits (rotated : cache.Rotated turn moved) (target : Nat) :
    moved.Admits target ↔ cache.Admits target := by
  have capacity : moved.ring.capacity = cache.ring.capacity := by
    rw [rotated.ring, Ring.capacity_rotate]
  have tail : moved.ring.tail = cache.ring.tail := by
    rw [rotated.ring, Ring.rotate, Ring.map]
  simp only [Admits, Ring.NearTarget, Ring.LateTail, capacity, tail]

theorem Rotated.reply (rotated : cache.Rotated turn moved) (request : Request) :
    (cache.reply request).Rotated turn (moved.reply (request.rotate turn)) := by
  have capacity : moved.ring.capacity = cache.ring.capacity := by
    rw [rotated.ring, Ring.capacity_rotate]
  cases request with
  | store seq payload =>
    simp only [Cache.reply, Request.rotate, rotated.window, rotated.ring, Window.mark_rotate]
    exact .stored
  | expect | resize => exact .done
  | read seq buffer =>
    simp only [Cache.reply, Request.rotate, rotated.ring, Ring.find?_rotate,
      Delivery.ofFound_rotate]
    exact .delivered
  | readAt seq index buffer =>
    simp only [Cache.reply, Request.rotate, rotated.ring, Ring.at?_rotate,
      Delivery.ofFound_rotate]
    exact .delivered
  | readNewest buffer =>
    simp only [Cache.reply, Request.rotate, rotated.ring, Ring.newest?_rotate,
      Delivery.ofFound_rotate]
    exact .delivered
  | capacity =>
    simp only [Cache.reply, Request.rotate, Cache.capacity, capacity]
    exact .capacity
  | first =>
    simp only [Cache.reply, Request.rotate, Cache.first, rotated.window]
    exact .first
  | resizeIfAdmitted target =>
    simp only [Cache.reply, Request.rotate, rotated.admits]
    exact .admitted
  | drain =>
    simp only [Cache.reply, Request.rotate, rotated.window, Window.frontBlock_rotate]
    exact .drained (Drain.rotated turn _)
  | report reset => exact .reported rotated.counters.report

theorem Rotated.resize (rotated : cache.Rotated turn moved) (target : Nat) :
    (cache.resize target).Rotated turn (moved.resize target) := by
  simp only [Cache.resize]
  split
  · refine ⟨rotated.counters, rotated.window, ?_⟩
    simp only [rotated.ring, Ring.resize_rotate]
  · exact rotated

theorem Rotated.next (rotated : cache.Rotated turn moved) (request : Request) :
    (cache.next request).Rotated turn (moved.next (request.rotate turn)) := by
  cases request with
  | store seq payload =>
    refine ⟨rotated.counters.record seq, ?_, ?_⟩
    · simp only [Cache.next, Request.rotate, Cache.store, rotated.window, Window.mark_rotate]
    · simp only [Cache.next, Request.rotate, Cache.store, rotated.ring]
      exact Ring.insert_rotate turn cache.ring (.ofPayload seq payload)
  | expect count =>
    obtain ⟨highest, expected, lost, lostBefore⟩ := rotated.counters
    refine ⟨⟨highest, ?_, lost, lostBefore⟩, rotated.window, rotated.ring⟩
    simp only [Cache.next, Request.rotate, Counters.expect, expected]
  | resize target => exact rotated.resize target
  | resizeIfAdmitted target =>
    simp only [Cache.next, Request.rotate, Cache.resizeIfAdmitted, rotated.admits]
    split
    · exact rotated.resize target
    · exact rotated
  | drain =>
    refine ⟨rotated.counters, ?_, rotated.ring⟩
    simp only [Cache.next, Request.rotate, rotated.window, Window.dropBlock_rotate]
  | report reset =>
    cases reset with
    | false => exact rotated
    | true =>
      refine ⟨⟨rotated.counters.highest, rfl, rfl, ?_⟩, rotated.window, rotated.ring⟩
      simp only [Cache.next, Request.rotate, if_true, Counters.closePeriod, rotated.counters.lost,
        rotated.counters.lostBefore]
  | read | readAt | readNewest | capacity | first => exact rotated

theorem Rotated.answers (rotated : cache.Rotated turn moved) (requests : List Request) :
    List.Forall₂ (fun answer other => answer.reply.Rotated turn other.reply)
      (cache.answers requests) (moved.answers (requests.map (Request.rotate turn))) := by
  induction requests generalizing cache moved with
  | nil => exact .nil
  | cons request rest ih => exact .cons (rotated.reply request) (ih (rotated.next request))

theorem Rotated.run (rotated : cache.Rotated turn moved) (requests : List Request) :
    (cache.run requests).Rotated turn (moved.run (requests.map (Request.rotate turn))) := by
  induction requests generalizing cache moved with
  | nil => exact rotated
  | cons request rest ih => exact ih (rotated.next request)

private theorem rotated_opened (capacity : Capacity) (turn : UInt16) (seq : SeqNum)
    (payload : ByteArray) :
    Rotated turn (next (.new capacity) (.store seq payload))
      (next (.new capacity) (.store (seq.advance turn) payload)) := by
  refine ⟨⟨⟨seq, rfl, rfl⟩, rfl, rfl, rfl⟩, Window.mark_empty_rotate turn seq, ?_⟩
  simp only [next, store, new]
  rw [← Ring.insert_rotate, Ring.empty_rotate]
  rfl

end Cache

/-- Runs that begin with a store are answered alike, from memory as well, when all their numbers
are moved by the same way. -/
theorem Cache.answers_rotate {capacity : Nat} {cache : Cache}
    (created : Cache.create capacity = .ok cache) (turn : UInt16) (seq : SeqNum)
    (payload : ByteArray) (later : List Request) :
    let requests := .store seq payload :: later
    let storage := Storage.after cache requests
    let moved := Storage.after cache (requests.map (Request.rotate turn))
    List.Forall₂ (fun answer other => answer.reply.Rotated turn other.reply)
      (cache.answers requests) (cache.answers (requests.map (Request.rotate turn))) ∧
    ∀ out, moved.readNewest out = storage.readNewest out ∧ ∀ number,
      moved.read (number.advance turn) out = storage.read number out ∧
      ∀ index, moved.readAt (number.advance turn) index out = storage.readAt number index out := by
  intro requests storage moved
  have realized : storage.Realizes (cache.run requests).ring :=
    Storage.realizes_run created requests
  have realizedMoved := Storage.realizes_run created (requests.map (Request.rotate turn))
  obtain ⟨valid, rfl⟩ := Cache.create_eq_ok_iff.mp created
  have opened := Cache.rotated_opened ⟨capacity, valid⟩ turn seq payload
  refine ⟨.cons ?_ (opened.answers later), ?_⟩
  · simp only [Cache.answer, Cache.reply, Request.rotate, Cache.new, Window.mark_empty_rotate]
    exact .stored
  · intro out
    have ring : (Cache.run _ (requests.map (Request.rotate turn))).ring = _ :=
      (opened.run later).ring
    rw [ring] at realizedMoved
    refine ⟨?_, fun number => ⟨?_, fun index => ?_⟩⟩
    · rw [realized.readNewest, realizedMoved.readNewest, Ring.newest?_rotate,
        Delivery.ofFound_rotate]
      rfl
    · rw [realized.read, realizedMoved.read, Ring.find?_rotate, Delivery.ofFound_rotate]
      rfl
    · rw [realized.readAt, realizedMoved.readAt, Ring.at?_rotate, Delivery.ofFound_rotate]
      rfl

/-- A stream that passes the end of the cycle, and the same one far from it. -/
theorem Cache.answers_rotate_wrapped :
    let cache : Cache := .new ⟨2, rfl⟩
    let requests : List Request :=
      [.store ⟨65535⟩ ⟨#[1]⟩, .store ⟨2⟩ ⟨#[2]⟩, .read ⟨0⟩ ⟨#[0]⟩, .drain, .report false]
    Cache.create 2 = .ok cache ∧
      List.Forall₂ (fun answer other => answer.reply.Rotated 7 other.reply)
        (cache.answers requests) (cache.answers (requests.map (Request.rotate 7))) := by
  intro cache requests
  have created : Cache.create 2 = .ok cache := rfl
  exact ⟨created, (Cache.answers_rotate created 7 ⟨65535⟩ ⟨#[1]⟩ _).1⟩

end Retransmission
