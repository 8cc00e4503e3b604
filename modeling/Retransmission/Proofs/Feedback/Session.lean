import Retransmission.Cache.Request
import Retransmission.Proofs.Feedback.Marking

/-! Arrivals and drains of one stream whose packets have integer positions. The
window always marks those packets of its range that arrived since it was last
found empty. -/

namespace Retransmission

/-- A stream at some moment, by positions with the newest first. `recent` holds the arrivals
since one last found the window empty. -/
structure Stream where
  opening : Int
  highest : Int
  stored : List Int
  recent : List Int
  start : Int
  drains : Nat
deriving DecidableEq, Repr

namespace Stream

def opened (position : Int) : Stream := ⟨position, position, [position], [position], position, 0⟩

/-- An arrival that finds the window empty. -/
def anchor (stream : Stream) (position : Int) : Stream :=
  { stream with
    highest := max stream.highest position
    stored := position :: stream.stored
    recent := [position]
    start := position }

/-- The window moves no further than it has to, but half a cycle is too far to move. -/
def arrive (stream : Stream) (position : Int) : Stream :=
  { stream with
    highest := max stream.highest position
    stored := position :: stream.stored
    recent := position :: stream.recent
    start :=
      if position < stream.start + 32768 then max stream.start (position - 31) else position }

def drain (stream : Stream) : Stream :=
  { stream with start := stream.start + 17, drains := stream.drains + 1 }

/-- The positions on which the next drain reports. -/
def block (stream : Stream) : List Int :=
  (List.range 17).map fun offset : Nat => stream.start + offset

end Stream

/-- Runs that begin with a store and go on with stores and drains in any order.
`admits` restricts the position of each further store. -/
inductive Session (admits : Cache → Stream → Int → Prop) : Cache → Stream → Prop where
  | opened (created : Cache.create capacity = .ok cache) :
      Session admits (cache.next (.store (.ofInt position) payload)) (.opened position)
  | anchored (session : Session admits cache stream) (empty : cache.window.bits = 0)
      (admitted : admits cache stream position) :
      Session admits (cache.next (.store (.ofInt position) payload)) (stream.anchor position)
  | arrived (session : Session admits cache stream) (nonempty : cache.window.bits ≠ 0)
      (admitted : admits cache stream position) :
      Session admits (cache.next (.store (.ofInt position) payload)) (stream.arrive position)
  | drained (session : Session admits cache stream) :
      Session admits (cache.next .drain) stream.drain

/-- Reordering, retransmissions and gaps, but no discontinuity. -/
def Ordinary (_ : Cache) (stream : Stream) (position : Int) : Prop :=
  stream.highest - 256 ≤ position ∧ position ≤ stream.highest + 32736

instance : Decidable (Ordinary cache stream position) :=
  inferInstanceAs (Decidable (_ ∧ _))

/-- The window marks the recent packets of its range, and reaches back to where
the next ordinary packet may be. -/
structure Faithful (window : Window) (stream : Stream) : Prop where
  first : window.first = .ofInt stream.start
  marked : ∀ offset : Nat,
    window.bits.getLsbD offset = true ↔ stream.start + offset ∈ stream.recent
  recent_stored : ∀ position ∈ stream.recent, position ∈ stream.stored
  stored_le : ∀ position ∈ stream.stored, position ≤ stream.highest
  lag : stream.highest ≤ stream.start + 256

namespace Faithful

variable {window : Window} {stream : Stream} {position : Int}

theorem marked_iff (faithful : Faithful window stream) (past : stream.start ≤ position) :
    window.bits.getLsbD (position - stream.start).toNat = true ↔ position ∈ stream.recent := by
  rw [faithful.marked, Int.toNat_of_nonneg (by omega), Int.add_comm, Int.sub_add_cancel]

theorem recent_lt (faithful : Faithful window stream) (member : position ∈ stream.recent) :
    position < stream.start + 32 := by
  apply Int.not_le.mp
  intro past
  have bound := BitVec.lt_of_getLsbD ((faithful.marked_iff (by omega)).mpr member)
  omega

theorem start_le (faithful : Faithful window stream) (nonempty : window.bits ≠ 0) :
    stream.start ≤ stream.highest := by
  have member := (faithful.marked _).mp (BitVec.getLsbD_true_ctz_of_ne_zero nonempty)
  have bound := faithful.stored_le _ (faithful.recent_stored _ member)
  omega

private theorem stored_le_max (faithful : Faithful window stream) :
    ∀ other ∈ position :: stream.stored, other ≤ max stream.highest position := by
  intro other member
  rcases List.mem_cons.mp member with rfl | earlier
  · exact Int.le_max_right ..
  · exact Int.le_trans (faithful.stored_le other earlier) (Int.le_max_left ..)

theorem drain (faithful : Faithful window stream) : Faithful window.dropBlock stream.drain where
  first := Window.first_dropBlock_ofInt faithful.first
  marked := by
    intro offset
    have moved : stream.start + 17 + offset = stream.start + (17 + offset : Nat) := by omega
    simp only [Stream.drain, moved]
    rw [← faithful.marked, Window.bits_dropBlock]
  recent_stored := faithful.recent_stored
  stored_le := faithful.stored_le
  lag := by
    have lag := faithful.lag
    simp only [Stream.drain]
    omega

private theorem marked_anew (empty : window.bits = 0) (offset : Nat) :
    (window.mark (.ofInt position)).bits.getLsbD offset = true ↔
      position + offset ∈ [position] := by
  rw [Window.mark_empty empty, BitVec.getLsbD_twoPow]
  simp only [List.mem_singleton, Bool.and_eq_true, decide_eq_true_eq]
  omega

theorem anchor (faithful : Faithful window stream) (empty : window.bits = 0)
    (low : stream.highest - 256 ≤ position) :
    Faithful (window.mark (.ofInt position)) (stream.anchor position) where
  first := by rw [Window.mark_empty empty, Stream.anchor]
  marked := marked_anew empty
  recent_stored := by simp [Stream.anchor]
  stored_le := faithful.stored_le_max
  lag := by
    simp only [Stream.anchor]
    omega

/-- What a window has to show after an arrival that does not find it empty. -/
private theorem extend (faithful : Faithful window stream) {after : Window} {start : Int}
    (moved : (stream.arrive position).start = start) (first : after.first = .ofInt start)
    (marked : ∀ offset : Nat, after.bits.getLsbD offset = true ↔
      start + offset = position ∨ start + offset ∈ stream.recent)
    (lag : max stream.highest position ≤ start + 256) :
    Faithful after (stream.arrive position) where
  first := moved ▸ first
  marked := by
    intro offset
    rw [marked, moved]
    exact List.mem_cons.symm
  recent_stored := List.forall_mem_cons.mpr ⟨List.mem_cons_self, fun other member =>
    List.mem_cons_of_mem _ (faithful.recent_stored other member)⟩
  stored_le := faithful.stored_le_max
  lag := moved ▸ lag

theorem arrive (faithful : Faithful window stream) (nonempty : window.bits ≠ 0)
    (low : stream.highest - 256 ≤ position) (high : position ≤ stream.highest + 32736) :
    Faithful (window.mark (.ofInt position)) (stream.arrive position) := by
  have placed := faithful.first
  have behind := faithful.start_le nonempty
  have lag := faithful.lag
  have moved : (stream.arrive position).start = if position < stream.start + 32768
      then max stream.start (position - 31) else position := rfl
  by_cases near : position < stream.start + 32768
  · rw [if_pos near] at moved
    by_cases before : position < stream.start
    · rw [Window.mark_before placed nonempty (by omega) before]
      rw [Int.max_eq_left (by omega)] at moved
      refine faithful.extend moved placed ?_ (by omega)
      intro offset
      rw [faithful.marked, or_iff_right (by omega)]
    · by_cases inside : position < stream.start + 32
      · rw [Window.mark_inside placed nonempty (by omega) inside]
        rw [Int.max_eq_left (by omega)] at moved
        refine faithful.extend moved placed ?_ (by omega)
        intro offset
        rw [BitVec.getLsbD_or, BitVec.getLsbD_twoPow, Bool.or_eq_true, faithful.marked, or_comm]
        apply or_congr_left
        simp only [Bool.and_eq_true, decide_eq_true_eq]
        omega
      · rw [Window.mark_beyond placed nonempty (by omega) near]
        rw [Int.max_eq_right (by omega)] at moved
        refine faithful.extend moved rfl ?_ (by omega)
        intro offset
        have shifted : position - 31 + offset =
            stream.start + ((position - stream.start - 31).toNat + offset : Nat) := by omega
        rw [BitVec.getLsbD_or, BitVec.getLsbD_twoPow, BitVec.getLsbD_ushiftRight, Bool.or_eq_true,
          faithful.marked, ← shifted, or_comm]
        apply or_congr_left
        simp only [Bool.and_eq_true, decide_eq_true_eq]
        omega
  · rw [if_neg near] at moved
    -- The way forwards is so long that it reads as a way back, past any reordering.
    have far : (SeqNum.ofInt position).OutOfRange window.first := by
      have turned : SeqNum.ofInt position = .ofInt (position - 65536) := by
        rw [SeqNum.ofInt_eq_ofInt_iff]
        omega
      rw [placed, turned, SeqNum.outOfRange_ofInt_iff (by omega) (by omega)]
      omega
    rw [Window.mark_outOfRange far]
    refine faithful.extend moved rfl ?_ (by omega)
    intro offset
    have unmarked : position + offset ∉ stream.recent := by
      intro member
      have bound := faithful.recent_lt member
      omega
    rw [BitVec.getLsbD_twoPow, or_iff_left unmarked]
    simp only [Bool.and_eq_true, decide_eq_true_eq]
    omega

theorem opened (position : Int) :
    Faithful (Window.empty.mark (.ofInt position)) (.opened position) where
  first := by rw [Window.mark_empty rfl, Stream.opened]
  marked := marked_anew rfl
  recent_stored := by simp [Stream.opened]
  stored_le := by simp [Stream.opened]
  lag := by
    simp only [Stream.opened]
    omega

end Faithful

theorem Session.faithful {admits : Cache → Stream → Int → Prop} {cache : Cache} {stream : Stream}
    (session : Session admits cache stream)
    (ordinary : ∀ cache stream position, admits cache stream position →
      Ordinary cache stream position) : Faithful cache.window stream := by
  induction session with
  | opened created =>
    rw [Cache.next, Cache.store, Cache.window_of_create created]
    exact .opened _
  | anchored _ empty admitted ih =>
    exact ih.anchor empty (ordinary _ _ _ admitted).1
  | arrived _ nonempty admitted ih =>
    have within := ordinary _ _ _ admitted
    exact ih.arrive nonempty within.1 within.2
  | drained _ ih => exact ih.drain

end Retransmission
