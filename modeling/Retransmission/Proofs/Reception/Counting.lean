import Retransmission.Cache.Request

namespace Retransmission

/-- The packets that a request announces as expected without storing them. -/
def Request.announced : Request → Nat
  | .expect count => count.toNat
  | _ => 0

/-- The report with which a request closes a report period, if it does. -/
def Request.closingReport? : Request → Reply → Option Report
  | .report true, .reported figures => some figures
  | _, _ => none

def Cache.closingReports (cache : Cache) : List Request → List Report
  | [] => []
  | request :: rest =>
    (request.closingReport? (cache.reply request)).toList ++
      (cache.next request).closingReports rest

theorem Request.closingReport?_eq_none {request : Request} (unclosing : request ≠ .report true)
    (reply : Reply) : request.closingReport? reply = none := by
  cases request with
  | report reset =>
    cases reset with
    | false => rfl
    | true => exact absurd rfl unclosing
  | _ => rfl

/-- What a request is to the counters. One that neither stores nor closes a period counts as
an announcement, though most announce no packets. -/
inductive Request.Counts : Request → Prop where
  | arrival (seq : SeqNum) (payload : ByteArray) : Counts (.store seq payload)
  | closing : Counts (.report true)
  | announcing (count : UInt32) (storeless : request.packet? = none)
      (unclosing : request ≠ .report true) (announced : request.announced = count.toNat)
      (counted : ∀ cache : Cache, (cache.next request).counters = cache.counters.expect count) :
      Counts request

theorem Request.counts (request : Request) : request.Counts := by
  have still (counters : Counters) : counters = counters.expect 0 := by
    rw [Counters.expect, UInt32.add_zero]
  cases request with
  | store seq payload => exact .arrival seq payload
  | expect count => exact .announcing count rfl nofun rfl fun _ => rfl
  | report reset =>
    cases reset with
    | false => exact .announcing 0 rfl nofun rfl fun cache => still cache.counters
    | true => exact .closing
  | resize target =>
    exact .announcing 0 rfl nofun rfl fun cache =>
      (cache.counters_resize target).trans (still cache.counters)
  | resizeIfAdmitted target =>
    exact .announcing 0 rfl nofun rfl fun cache =>
      (cache.counters_resizeIfAdmitted target).trans (still cache.counters)
  | read | readAt | readNewest | capacity | first | drain =>
    exact .announcing 0 rfl nofun rfl fun cache => still cache.counters

namespace Cache

variable (cache : Cache) {request : Request}

theorem counters_next_store (brought : request.packet? = some packet) :
    (cache.next request).counters = cache.counters.record packet.seq := by
  cases request.counts with
  | arrival seq payload =>
    cases brought
    rfl
  | closing => cases brought
  | announcing count storeless => cases storeless.symm.trans brought

/-- Only stores move the highest number. -/
theorem highest_next_quiet (quiet : request.packet? = none) :
    (cache.next request).counters.highest = cache.counters.highest := by
  cases request.counts with
  | arrival seq payload => cases quiet
  | closing => rfl
  | announcing count _ _ _ counted => rw [counted, Counters.expect]

theorem lost_next_quiet (quiet : request.packet? = none) (unclosing : request ≠ .report true) :
    (cache.next request).counters.lost = cache.counters.lost := by
  cases request.counts with
  | arrival seq payload => cases quiet
  | closing => exact absurd rfl unclosing
  | announcing count _ _ _ counted => rw [counted, Counters.expect]

end Cache

end Retransmission
