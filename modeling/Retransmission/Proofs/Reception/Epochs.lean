import Mathlib.Data.Int.ModEq
import Retransmission.Proofs.Reception.Counting
import Retransmission.Proofs.Reception.Recording

/-! The true positions behind the reception figures. A stream divides into epochs
at its restarts, and within an epoch each arrival has one integer position. The
wrapping counters agree with sums over those positions. -/

namespace Retransmission

/-- The part of a stream between two restarts, by the positions of its opening
packet and of its highest one. -/
structure Epoch where
  opening : Int
  highest : Int
deriving DecidableEq, Repr

namespace Epoch

/-- The first packet of an epoch is at the position equal to its number. -/
def opened (arrival : SeqNum) : Epoch := ⟨arrival.word.toNat, arrival.word.toNat⟩

def reach (epoch : Epoch) (position : Int) : Epoch :=
  { epoch with highest := max epoch.highest position }

/-- The positions from the opening packet to the highest one. -/
def span (epoch : Epoch) : Int := epoch.highest - epoch.opening + 1

/-- The ends of the cycle below the highest packet. -/
def turns (epoch : Epoch) : Int := epoch.highest / 65536

/-- What an arrival makes of the epochs before it, all given with the newest first.
It restarts the stream when it is out of range of `last`. -/
inductive Extends (last : Option SeqNum) (arrival : SeqNum) : List Epoch → List Epoch → Prop where
  | first : Extends last arrival [] [opened arrival]
  | restart (known : last = some number) (far : arrival.OutOfRange number) :
      Extends last arrival (epoch :: earlier) (opened arrival :: epoch :: earlier)
  | within (known : last = some number) (near : ¬ arrival.OutOfRange number)
      (stands : SeqNum.ofInt position = arrival)
      (low : epoch.highest - 256 ≤ position) (high : position ≤ epoch.highest + 32767) :
      Extends last arrival (epoch :: earlier) (epoch.reach position :: earlier)

/-- How the stores of a run divide into epochs. Other requests leave the epochs alone. -/
inductive Divides : Cache → List Epoch → List Request → List Epoch → Prop where
  | done : Divides cache epochs [] epochs
  | store (extended : Extends cache.counters.highest seq epochs grown)
      (rest : Divides (cache.next (.store seq payload)) grown requests final) :
      Divides cache epochs (.store seq payload :: requests) final
  | other (quiet : ∀ seq payload, request ≠ .store seq payload)
      (rest : Divides (cache.next request) epochs requests final) :
      Divides cache epochs (request :: requests) final

theorem Extends.unique (extended : Extends last arrival epochs grown)
    (another : Extends last arrival epochs grown') : grown = grown' := by
  cases extended with
  | first =>
    cases another with
    | first => rfl
  | restart known far =>
    cases another with
    | restart _ _ => rfl
    | within again near _ _ _ =>
      cases known.symm.trans again
      exact absurd far near
  | within known near stands low high =>
    cases another with
    | restart again far =>
      cases known.symm.trans again
      exact absurd far near
    | @within _ place _ _ _ _ standsAgain lowAgain highAgain =>
      have residue := (SeqNum.ofInt_eq_ofInt_iff ..).mp (stands.trans standsAgain.symm)
      congr 2
      omega

theorem Divides.unique (divided : Divides cache epochs requests final)
    (another : Divides cache epochs requests final') : final = final' := by
  induction divided generalizing final' with
  | done =>
    cases another with
    | done => rfl
  | store extended rest ih =>
    cases another with
    | store again restAgain =>
      cases extended.unique again
      exact ih restAgain
    | other quiet _ => exact absurd rfl (quiet _ _)
  | other quiet rest ih =>
    cases another with
    | store _ _ => exact absurd rfl (quiet _ _)
    | other _ restAgain => exact ih restAgain

/-- Counters that agree with the epochs before them. `due` is the rest of the
expected packets, those announced less those reported when earlier periods closed. -/
structure Tally (counters : Counters) (epochs : List Epoch) (due : Int) : Prop where
  highest : counters.highest = epochs.head?.map fun epoch => .ofInt epoch.highest
  cycles : counters.cycles.toNat ≡ (epochs.map turns).sum [ZMOD 65536]
  expected : counters.expected.toNat ≡ (epochs.map span).sum + due [ZMOD 4294967296]

theorem tally_start : Tally .start [] 0 where
  highest := rfl
  cycles := rfl
  expected := rfl

private theorem toNat_add_modEq (count : UInt32) (more : Int) :
    (count + .ofInt more).toNat ≡ count.toNat + more [ZMOD 4294967296] := by
  simp only [Int.ModEq, UInt32.toNat_add, UInt32.ofInt, UInt32.toNat_ofNat']
  omega

/-- An epoch opens with its one packet expected, and no end of the cycle behind it. -/
theorem Tally.open {counters : Counters} (tally : Tally counters epochs due) (arrival : SeqNum) :
    Tally { counters with highest := some arrival, expected := counters.expected + 1 }
      (opened arrival :: epochs) due where
  highest := by
    have stands : SeqNum.ofInt arrival.word.toNat = arrival := by
      rw [SeqNum.ofInt_eq_iff]
      have bound := arrival.word.toNat_lt
      omega
    simp [opened, stands]
  cycles := by
    have bound := arrival.word.toNat_lt
    have turns : (opened arrival).turns = 0 := by
      simp only [Epoch.turns, opened]
      omega
    simpa [turns] using tally.cycles
  expected := by
    have step := toNat_add_modEq counters.expected 1
    have before := tally.expected
    simp only [Int.ModEq, List.map_cons, List.sum_cons, span, opened, UInt32.ofInt_one] at *
    omega

theorem Tally.reach {counters : Counters} (tally : Tally counters (epoch :: earlier) due)
    (low : epoch.highest - 256 ≤ position) (high : position ≤ epoch.highest + 32767) :
    Tally (counters.record (.ofInt position)) (epoch.reach position :: earlier) due := by
  have known : counters.highest = some (.ofInt epoch.highest) := tally.highest
  by_cases ahead : epoch.highest < position
  · rw [Counters.record_ahead known ahead (by omega)]
    have grown : epoch.reach position = { epoch with highest := position } := by
      rw [Epoch.reach, max_eq_right (by omega)]
    rw [grown]
    refine ⟨rfl, ?_, ?_⟩
    · have before := tally.cycles
      simp only [Int.ModEq, List.map_cons, List.sum_cons, turns, UInt16.toNat_add, UInt16.ofInt,
        UInt16.toNat_ofNat'] at *
      omega
    · have step := toNat_add_modEq counters.expected (position - epoch.highest)
      have before := tally.expected
      simp only [Int.ModEq, List.map_cons, List.sum_cons, span] at *
      omega
  · rw [Counters.record_late known low (by omega)]
    have same : epoch.reach position = epoch := by
      rw [Epoch.reach, max_eq_left (by omega)]
    rw [same]
    exact ⟨tally.highest, tally.cycles, tally.expected⟩

theorem Tally.record {counters : Counters} (tally : Tally counters epochs due)
    (arrival : SeqNum) :
    ∃ grown, Extends counters.highest arrival epochs grown ∧
      Tally (counters.record arrival) grown due := by
  cases epochs with
  | nil =>
    have unknown : counters.highest = none := tally.highest
    refine ⟨_, .first, ?_⟩
    rw [Counters.record_opening unknown]
    exact tally.open arrival
  | cons epoch earlier =>
    have known : counters.highest = some (.ofInt epoch.highest) := tally.highest
    by_cases far : arrival.OutOfRange (.ofInt epoch.highest)
    · refine ⟨_, .restart known far, ?_⟩
      rw [Counters.record_restart known far]
      exact tally.open arrival
    · obtain ⟨position, rfl, low, high⟩ := SeqNum.exists_position arrival epoch.highest
      rw [SeqNum.outOfRange_ofInt_iff low high] at far
      have near := Int.not_lt.mp far
      exact ⟨_, .within known (by rwa [SeqNum.outOfRange_ofInt_iff low high]) rfl near (by omega),
        tally.reach near (by omega)⟩

/-- Between stores, only announcements and closed periods change what is due. -/
theorem Tally.other {cache : Cache} (tally : Tally cache.counters epochs due) {request : Request}
    (quiet : ∀ seq payload, request ≠ .store seq payload) :
    Tally (cache.next request).counters epochs (due + request.announced -
      ((request.closingReport? (cache.reply request)).toList.map (·.expected.toNat)).sum) := by
  have before := tally.expected
  cases request.counts with
  | arrival seq payload => exact absurd rfl (quiet seq payload)
  | closing =>
    refine ⟨tally.highest, tally.cycles, ?_⟩
    simp only [Int.ModEq, Cache.next, Cache.reply, Counters.report, Counters.closePeriod,
      Request.announced, Request.closingReport?, if_true, Option.toList_some, List.map_cons,
      List.map_nil, List.sum_cons, List.sum_nil, UInt32.toNat_zero] at *
    omega
  | announcing count storeless unclosing announced counted =>
    rw [counted, announced, Request.closingReport?_eq_none unclosing]
    refine ⟨tally.highest, tally.cycles, ?_⟩
    simp only [Int.ModEq, Counters.expect, UInt32.toNat_add, Option.toList_none, List.map_nil,
      List.sum_nil] at *
    omega

theorem Tally.run {cache : Cache} (tally : Tally cache.counters epochs due)
    (requests : List Request) :
    ∃ final, Divides cache epochs requests final ∧
      Tally (cache.run requests).counters final (due + (requests.map Request.announced).sum -
        ((cache.closingReports requests).map (·.expected.toNat)).sum) := by
  induction requests generalizing cache epochs due with
  | nil => exact ⟨epochs, .done, by simpa [Cache.closingReports] using tally⟩
  | cons request rest ih =>
    by_cases stores : ∃ seq payload, request = .store seq payload
    · obtain ⟨seq, payload, rfl⟩ := stores
      obtain ⟨grown, extended, recorded⟩ := tally.record seq
      have stored : Tally (cache.next (.store seq payload)).counters grown due := recorded
      obtain ⟨final, divided, result⟩ := ih stored
      refine ⟨final, .store extended divided, ?_⟩
      simpa [Cache.closingReports, Request.closingReport?, Request.announced] using result
    · have quiet : ∀ seq payload, request ≠ .store seq payload := by
        intro seq payload same
        exact stores ⟨seq, payload, same⟩
      obtain ⟨final, divided, result⟩ := ih (tally.other quiet)
      refine ⟨final, .other quiet divided, ?_⟩
      rw [Cache.run_cons]
      convert result using 1
      simp only [Cache.closingReports, List.map_cons, List.sum_cons, List.map_append,
        List.sum_append]
      omega

theorem Tally.extendedSeq {counters : Counters} (tally : Tally counters epochs due) :
    counters.extendedSeq.toNat ≡
      65536 * (epochs.map turns).sum + epochs.head?.elim 0 (·.highest % 65536)
        [ZMOD 4294967296] := by
  have number : ((counters.highest.getD ⟨0⟩).word.toNat : Int) =
      epochs.head?.elim 0 (·.highest % 65536) := by
    rw [tally.highest]
    cases epochs with
    | nil => rfl
    | cons epoch earlier => simpa using SeqNum.toNat_ofInt epoch.highest
  have turned := tally.cycles
  rw [counters.toNat_extendedSeq, ← number]
  simp only [Int.ModEq] at *
  omega

end Epoch

/-- The stores of a run divide into epochs in one way, and the expected packets and the extended
number are sums over them. -/
theorem Cache.run_unwraps {capacity : Nat} {cache : Cache}
    (created : Cache.create capacity = .ok cache) (requests : List Request) :
    let figures := (cache.run requests).counters.report
    ∃ epochs, Epoch.Divides cache [] requests epochs ∧
      (∀ other, Epoch.Divides cache [] requests other → other = epochs) ∧
      ((cache.closingReports requests).map (·.expected.toNat)).sum + figures.expected.toNat ≡
        (epochs.map Epoch.span).sum + (requests.map Request.announced).sum
          [ZMOD 4294967296] ∧
      figures.extendedSeq.toNat ≡
        65536 * (epochs.map fun epoch => epoch.highest / 65536).sum +
          epochs.head?.elim 0 (·.highest % 65536) [ZMOD 4294967296] ∧
      ∀ epoch, epochs = [epoch] →
        figures.extendedSeq.toNat ≡ epoch.highest [ZMOD 4294967296] := by
  intro figures
  have start : Epoch.Tally cache.counters [] 0 := by
    rw [counters_of_create created]
    exact Epoch.tally_start
  obtain ⟨epochs, divided, tally⟩ := start.run requests
  refine ⟨epochs, divided, fun other again => again.unique divided, ?_, tally.extendedSeq, ?_⟩
  · have expected := tally.expected
    simp only [figures, Counters.report, Int.ModEq] at *
    omega
  · rintro epoch rfl
    have extended := tally.extendedSeq
    simp only [figures, Counters.report, Epoch.turns, List.map_cons, List.map_nil, List.sum_cons,
      List.sum_nil, List.head?_cons, Option.elim_some] at *
    rwa [Int.add_zero, Int.mul_ediv_add_emod] at extended

/-- A packet from before the end of the cycle arrives late, and a far one restarts the stream. -/
theorem Cache.run_unwraps_restarted :
    let cache : Cache := .new ⟨4, rfl⟩
    let requests : List Request :=
      [.store ⟨65534⟩ .empty, .store ⟨1⟩ .empty, .report true, .store ⟨65535⟩ .empty, .expect 9,
        .store ⟨40000⟩ .empty]
    let figures := (cache.run requests).counters.report
    Cache.create 4 = .ok cache ∧
      Epoch.Divides cache [] requests [⟨40000, 40000⟩, ⟨65534, 65537⟩] ∧
      4 + figures.expected.toNat ≡ 1 + 4 + 9 [ZMOD 4294967296] ∧
      figures.extendedSeq.toNat ≡ 65536 + 40000 [ZMOD 4294967296] := by
  intro cache requests figures
  have created : Cache.create 4 = .ok cache := rfl
  have divided : Epoch.Divides cache [] requests [⟨40000, 40000⟩, ⟨65534, 65537⟩] :=
    .store .first
      (.store (.within rfl (by decide) (show SeqNum.ofInt 65537 = ⟨1⟩ by decide) (by decide)
          (by decide))
        (.other (by simp)
          (.store (.within rfl (by decide) (show SeqNum.ofInt 65535 = ⟨65535⟩ by decide)
              (by decide) (by decide))
            (.other (by simp) (.store (.restart rfl (by decide)) .done)))))
  obtain ⟨epochs, _, unique, expected, extended, _⟩ := Cache.run_unwraps created requests
  rw [← unique _ divided] at expected extended
  have closed : (cache.closingReports requests).map (·.expected.toNat) = [4] := by decide +kernel
  rw [closed] at expected
  exact ⟨created, divided, expected, extended⟩

end Retransmission
