import Retransmission.Proofs.Feedback.Block
import Retransmission.Proofs.Feedback.Session

namespace Retransmission

variable {cache : Cache} {stream : Stream}

theorem Stream.mem_block : position ∈ stream.block ↔
    stream.start ≤ position ∧ position < stream.start + 17 := by
  simp only [Stream.block, List.mem_map, List.mem_range]
  constructor
  · rintro ⟨offset, within, rfl⟩
    omega
  · rintro ⟨low, high⟩
    exact ⟨(position - stream.start).toNat, by omega, by omega⟩

theorem Faithful.missing_frontBlock {window : Window} (faithful : Faithful window stream) :
    window.frontBlock.missing =
      (stream.block.filter fun position => position ∉ stream.recent).map SeqNum.ofInt := by
  rw [window.missing_frontBlock, Stream.block, List.filter_map, List.map_map]
  have tests : ((List.range 17).filter fun offset => !window.bits.getLsbD offset) =
      (List.range 17).filter ((fun position => decide (position ∉ stream.recent)) ∘
        fun offset : Nat => stream.start + offset) := by
    apply List.filter_congr
    intro offset _
    rw [Bool.eq_iff_iff]
    simp [← faithful.marked]
  rw [tests]
  apply List.map_congr_left
  intro offset member
  have within : offset < 17 := List.mem_range.mp (List.mem_filter.mp member).1
  have distance : (UInt16.ofNat offset).toNat = offset :=
    UInt16.toNat_ofNat_of_lt (Nat.lt_trans within (by decide))
  rw [faithful.first, SeqNum.advance_ofInt, distance, Function.comp_apply]

theorem Faithful.hasLoss_frontBlock {window : Window} (faithful : Faithful window stream) :
    window.frontBlock.hasLoss = false ↔ ∀ position ∈ stream.block, position ∈ stream.recent := by
  rw [window.hasLoss_frontBlock]
  simp [Stream.block, faithful.marked]

/-- Ordinary arrivals, of which one that finds the window empty is ahead of all others. -/
def Leading (cache : Cache) (stream : Stream) (position : Int) : Prop :=
  Ordinary cache stream position ∧
    (cache.window.bits = 0 → ∀ earlier ∈ stream.stored, earlier < position)

instance : Decidable (Leading cache stream position) :=
  inferInstanceAs (Decidable (_ ∧ _))

/-- When windows begin anew only ahead of the stream, they forget nothing in their range. -/
theorem Session.recent_of_stored (session : Session Leading cache stream) :
    ∀ position ∈ stream.stored, stream.start ≤ position → position ∈ stream.recent := by
  induction session with
  | opened _ => simp [Stream.opened]
  | anchored _ empty admitted _ =>
    intro other member past
    rcases List.mem_cons.mp member with rfl | earlier
    · exact List.mem_cons_self
    · have behind := admitted.2 empty other earlier
      simp only [Stream.anchor] at past
      omega
  | @arrived cache stream position payload session nonempty admitted ih =>
    intro other member past
    rcases List.mem_cons.mp member with rfl | earlier
    · exact List.mem_cons_self
    · refine List.mem_cons_of_mem _ (ih other earlier ?_)
      simp only [Stream.arrive] at past
      split at past <;> omega
  | drained _ ih =>
    intro other member past
    simp only [Stream.drain] at *
    exact ih other member (by omega)

/-- Until the first drain the window follows the highest packet, but never ends before the first. -/
theorem Session.start_undrained (session : Session Leading cache stream) :
    stream.opening ∈ stream.stored ∧ stream.highest ∈ stream.stored ∧
      (stream.drains = 0 → stream.start = max stream.opening (stream.highest - 31)) := by
  induction session with
  | opened _ =>
    refine ⟨List.mem_cons_self, List.mem_cons_self, ?_⟩
    intro _
    simp only [Stream.opened]
    omega
  | @anchored cache stream position payload session empty admitted ih =>
    obtain ⟨opening, highest, undrained⟩ := ih
    refine ⟨List.mem_cons_of_mem _ opening, ?_, ?_⟩
    · have ahead := admitted.2 empty _ highest
      simp only [Stream.anchor, Int.max_eq_right (Int.le_of_lt ahead)]
      exact List.mem_cons_self
    · -- Only a drain can have emptied the window, which still covers the highest packet.
      intro fresh
      have faithful := session.faithful fun _ _ _ admitted => admitted.1
      have start := undrained fresh
      have opened := faithful.stored_le _ opening
      have recent := session.recent_of_stored _ highest (by omega)
      have marked := (faithful.marked_iff (by omega)).mpr recent
      simp [empty] at marked
  | @arrived cache stream position payload session nonempty admitted ih =>
    obtain ⟨opening, highest, undrained⟩ := ih
    refine ⟨List.mem_cons_of_mem _ opening, ?_, ?_⟩
    · rcases Int.le_total stream.highest position with raised | kept
      · simp only [Stream.arrive, Int.max_eq_right raised]
        exact List.mem_cons_self
      · simp only [Stream.arrive, Int.max_eq_left kept]
        exact List.mem_cons_of_mem _ highest
    · intro fresh
      have start := undrained fresh
      have within := admitted.1.2
      have faithful := session.faithful fun _ _ _ admitted => admitted.1
      have opened := faithful.stored_le _ opening
      simp only [Stream.arrive]
      rw [if_pos (by omega)]
      omega
  | drained _ ih =>
    refine ⟨ih.1, ih.2.1, ?_⟩
    intro fresh
    simp only [Stream.drain] at fresh
    omega

/-- While windows begin anew only ahead of the stream, the window shows exactly the packets
stored in its range, and drains report exactly the missing ones. -/
theorem Session.window_exact (session : Session Leading cache stream) :
    cache.first = .ofInt stream.start ∧
      (∀ offset < 32, cache.window.bits.getLsbD offset = true ↔
        stream.start + offset ∈ stream.stored) ∧
      (∀ position ∈ stream.stored, position < stream.start + 32) ∧
      (∃ drain, cache.reply .drain = .drained drain ∧
        (drain.hasLoss = false ↔ ∀ position ∈ stream.block, position ∈ stream.stored) ∧
        (drain.hasLoss = true → drain.nack?.map Nack.missing =
          some ((stream.block.filter fun position => position ∉ stream.stored).map SeqNum.ofInt))) ∧
      (stream.drains = 0 → stream.start = max stream.opening (stream.highest - 31)) := by
  have faithful := session.faithful fun _ _ _ admitted => admitted.1
  have same {position : Int} (past : stream.start ≤ position) :
      position ∈ stream.recent ↔ position ∈ stream.stored :=
    ⟨faithful.recent_stored position, fun member => session.recent_of_stored position member past⟩
  have inBlock {position : Int} (member : position ∈ stream.block) :
      position ∈ stream.recent ↔ position ∈ stream.stored :=
    same (Stream.mem_block.mp member).1
  refine ⟨faithful.first, ?_, ?_, ⟨cache.window.frontBlock, rfl, ?_, ?_⟩,
    session.start_undrained.2.2⟩
  · intro offset _
    rw [faithful.marked, same (by omega)]
  · intro position member
    rcases Int.lt_or_le position stream.start with before | past
    · omega
    · exact faithful.recent_lt ((same past).mpr member)
  · rw [faithful.hasLoss_frontBlock]
    exact forall₂_congr fun position member => inBlock member
  · intro loss
    have listed := faithful.missing_frontBlock
    rw [Drain.missing, Drain.nack?, if_pos loss] at listed
    have tests : (stream.block.filter fun position => position ∉ stream.recent) =
        stream.block.filter fun position => position ∉ stream.stored := by
      apply List.filter_congr
      intro position member
      simp only [inBlock member]
    rw [Drain.nack?, if_pos loss, ← tests, ← listed]
    rfl

/-- A drain empties the window, and the next packet begins it anew past the end of the cycle. -/
theorem Session.window_exact_refilled :
    let cache : Cache := .new ⟨4, rfl⟩
    let after := cache.run [.store (.ofInt 65530) ⟨#[1]⟩, .drain, .store (.ofInt 65550) ⟨#[2]⟩,
      .store (.ofInt 65552) ⟨#[3]⟩]
    Cache.create 4 = .ok cache ∧ after.first = ⟨14⟩ ∧ after.window.bits.getLsbD 2 = true ∧
      ∃ drain, after.reply .drain = .drained drain ∧ drain.hasLoss = true ∧
        drain.nack?.map Nack.missing =
          some ([15, 17, 18, 19, 20, 21, 22, 23, 24, 25, 26, 27, 28, 29, 30].map SeqNum.mk) := by
  intro cache after
  have created : Cache.create 4 = .ok cache := rfl
  have session : Session Leading after
      ⟨65530, 65552, [65552, 65550, 65530], [65552, 65550], 65550, 1⟩ :=
    .arrived (.anchored (.drained (.opened created)) (by decide) (by decide))
      (by decide +kernel) (by decide +kernel)
  obtain ⟨first, marked, _, ⟨drain, reply, lossless, missing⟩, _⟩ := session.window_exact
  have loss : drain.hasLoss = true := by
    rw [← Bool.not_eq_false, lossless]
    decide
  refine ⟨created, first, (marked 2 (by decide)).mpr (by decide), drain, reply, loss, ?_⟩
  rw [missing loss]
  decide

theorem Stream.ofInt_inj_block (member : position ∈ stream.block) (other : earlier ∈ stream.block) :
    SeqNum.ofInt position = SeqNum.ofInt earlier ↔ position = earlier := by
  rw [Stream.mem_block] at member other
  rw [SeqNum.ofInt_eq_ofInt_iff]
  omega

theorem Faithful.mem_missing {window : Window} (faithful : Faithful window stream)
    (member : position ∈ stream.block) :
    SeqNum.ofInt position ∈ window.frontBlock.missing ↔ position ∉ stream.recent := by
  rw [faithful.missing_frontBlock, List.mem_map]
  constructor
  · rintro ⟨listed, kept, same⟩
    obtain ⟨other, absent⟩ := List.mem_filter.mp kept
    rw [Stream.ofInt_inj_block other member] at same
    subst same
    exact of_decide_eq_true absent
  · intro absent
    exact ⟨position, List.mem_filter.mpr ⟨member, decide_eq_true absent⟩, rfl⟩

/-- A drain reports the positions of its block that were not stored since the window was last
found empty, though some may have been stored before. -/
theorem Session.reports_stored_iff (session : Session Ordinary cache stream) :
    ∃ drain, cache.reply .drain = .drained drain ∧
      drain.missing =
        (stream.block.filter fun position => position ∉ stream.recent).map SeqNum.ofInt ∧
      ((∀ position ∈ stream.block, position ∈ stream.stored → .ofInt position ∉ drain.missing) ↔
        ∀ position ∈ stream.block, position ∈ stream.stored → position ∈ stream.recent) := by
  have faithful := session.faithful fun _ _ _ admitted => admitted
  refine ⟨cache.window.frontBlock, rfl, faithful.missing_frontBlock, ?_⟩
  apply forall₂_congr
  intro position member
  rw [faithful.mem_missing member, Decidable.not_not]

/-- A retransmission that a drained window takes in leaves nothing reported that was stored. -/
theorem Session.reports_stored_iff_ahead :
    let cache : Cache := .new ⟨4, rfl⟩
    let after := cache.run [.store (.ofInt 5) ⟨#[1]⟩, .store (.ofInt 22) ⟨#[2]⟩, .drain,
      .store (.ofInt 23) ⟨#[3]⟩, .store (.ofInt 21) ⟨#[4]⟩]
    Cache.create 4 = .ok cache ∧ ∃ drain, after.reply .drain = .drained drain ∧
      SeqNum.ofInt 22 ∉ drain.missing ∧ SeqNum.ofInt 23 ∉ drain.missing := by
  intro cache after
  have created : Cache.create 4 = .ok cache := rfl
  have session : Session Ordinary after ⟨5, 23, [21, 23, 22, 5], [21, 23, 22, 5], 22, 1⟩ :=
    .arrived (.arrived (.drained (.arrived (.opened created)
        (by decide +kernel) (by decide +kernel)))
      (by decide +kernel) (by decide +kernel)) (by decide +kernel) (by decide +kernel)
  obtain ⟨drain, reply, _, sound⟩ := session.reports_stored_iff
  have kept := sound.mpr (by decide)
  exact ⟨created, drain, reply, kept 22 (by decide) (by decide), kept 23 (by decide) (by decide)⟩

/-- A drain that empties the window lets a late packet begin it anew, and the next drain reports
a packet that was stored. -/
theorem Session.reports_stored_late :
    let cache : Cache := .new ⟨4, rfl⟩
    let after := cache.run [.store (.ofInt 5) ⟨#[0]⟩, .drain, .store (.ofInt 4) ⟨#[0]⟩]
    let stream : Stream := ⟨5, 5, [4, 5], [4], 4, 1⟩
    Cache.create 4 = .ok cache ∧ Session Ordinary after stream ∧
      ∃ drain, after.reply .drain = .drained drain ∧
        5 ∈ stream.block ∧ 5 ∈ stream.stored ∧ SeqNum.ofInt 5 ∈ drain.missing := by
  intro cache after stream
  have created : Cache.create 4 = .ok cache := rfl
  have session : Session Ordinary after stream :=
    .anchored (.drained (.opened created)) (by decide) (by decide)
  exact ⟨created, session, _, rfl, by decide, by decide, by decide +kernel⟩

end Retransmission
