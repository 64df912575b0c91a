import ChronosLedger.Booking
import ChronosLedger.Pools

namespace ChronosLedger
open Spans

theorem poolCheck_parts {cal : Recurrence} {db : Database} {resource : Resource} {payload : ReservationCreate} {done : Unit} :
    poolCheck cal db resource payload = .ok done ↔
      (poolState db resource.id payload.date payload.start payload.finish).1+payload.quantity ≤ (resource.capacity.getD 0 : Nat) := by
  simp only [poolCheck,ensure_parts]

-- What lets a booking past its checks, mode by mode.
theorem bookingChecks_parts {cal : Recurrence} {db : Database} {resource : Resource} {payload : ReservationCreate} {done : Unit} :
    bookingChecks cal db resource payload = .ok done ↔
      (resource.mode ≠ .shared → windowConflicts cal db resource.id payload.date payload.start payload.finish
        (resource.mode = .exclusive) = []) ∧
      (resource.mode = .pooled →
        (poolState db resource.id payload.date payload.start payload.finish).1+payload.quantity ≤ (resource.capacity.getD 0 : Nat)) := by
  unfold bookingChecks
  cases mode : resource.mode <;>
    simp [bind_parts,conflictsFor,poolCheck_parts,pure,Except.pure]

theorem refused_iff {α : Type} {answer : Answer α} : (∃ refusal, answer = .error refusal) ↔ ∀ done, answer ≠ .ok done := by
  cases answer <;> simp

-- For a pool the timetable refuses and so does one moment with no unit left.
theorem pool_refuses {cal : Recurrence} {db : Database} {resource : Resource} {payload : ReservationCreate}
    (pooled : resource.mode = .pooled) (one : payload.quantity = 1) :
    (∃ refusal, bookingChecks cal db resource payload = .error refusal) ↔
      TimetableMeets cal db (some resource.id) (windowSpan payload.date payload.start payload.finish) ∨
        ∃ i, Covers (windowSpan payload.date payload.start payload.finish) i ∧
          resource.capacity.getD 0 ≤ heldLoad db resource.id i := by
  have sized := resource.poolCapacity pooled
  have room := poolState_exact db resource.id payload.date payload.start payload.finish
    (show 0 ≤ ((resource.capacity.getD 0 : Nat) : Int)-1 by omega)
  have left : (poolState db resource.id payload.date payload.start payload.finish).1+payload.quantity ≤
      (resource.capacity.getD 0 : Nat) ↔ ∀ i, Covers (windowSpan payload.date payload.start payload.finish) i →
        ¬ resource.capacity.getD 0 ≤ heldLoad db resource.id i := by
    rw [one,show ∀ a b : Int, a+((1 : Nat) : Int) ≤ b ↔ a ≤ b-1 from fun a b => by omega,room]
    exact forall_congr' (fun i => imp_congr_right (fun _ => by omega))
  rw [refused_iff]
  simp only [ne_eq,bookingChecks_parts,pooled,left,windowConflicts_exact]
  simp only [reduceCtorEq,not_false_eq_true,decide_false,Bool.false_eq_true,false_implies,and_true,forall_const,not_and_or,
    not_not,not_forall,exists_prop]

theorem exclusive_refuses {cal : Recurrence} {db : Database} {resource : Resource} {payload : ReservationCreate}
    (exclusive : resource.mode = .exclusive) :
    (∃ refusal, bookingChecks cal db resource payload = .error refusal) ↔
      TimetableMeets cal db (some resource.id) (windowSpan payload.date payload.start payload.finish) ∨
        HoldMeets db resource.id (windowSpan payload.date payload.start payload.finish) := by
  rw [refused_iff]
  simp only [ne_eq,bookingChecks_parts,exclusive,windowConflicts_exact]
  simp only [reduceCtorEq,not_false_eq_true,decide_true,false_implies,and_true,forall_const,not_and_or,not_not]

-- What availability shows busy in a window, with no range asked about.
theorem busyList_meets {cal : Recurrence} {db : Database} {resource : Resource} {fromDate toDate day : Int} {start finish : Time}
    (counted : resource.mode ≠ .shared) (proper : finish ≠ start) (opens : fromDate ≤ day)
    (closes : lastDate day start finish ≤ toDate) :
    (∃ entry ∈ busyList cal db resource fromDate toDate, Meets (bounds entry) (windowSpan day start finish)) ↔
      TimetableMeets cal db (some resource.id) (windowSpan day start finish) ∨
        (resource.mode = .exclusive ∧ HoldMeets db resource.id (windowSpan day start finish) ∨
          resource.mode = .pooled ∧ ∃ i, Covers (windowSpan day start finish) i ∧
            resource.capacity.getD 0 ≤ heldLoad db resource.id i) := by
  cases mode : resource.mode with
  | shared => exact absurd mode counted
  | exclusive =>
    have busy := occupied_meets cal db resource.id opens closes true
    simpa [busyList,mode] using busy
  | pooled =>
    have busy := occupied_meets cal db resource.id opens closes false
    have full := full_meets (heldReservations db resource.id fromDate toDate) (resource.poolCapacity mode) proper opens closes
    have loads : (∃ i, Covers (windowSpan day start finish) i ∧ resource.capacity.getD 0 ≤
        Levels.load ((heldReservations db resource.id fromDate toDate).map heldTaking) i) ↔
        ∃ i, Covers (windowSpan day start finish) i ∧ resource.capacity.getD 0 ≤ heldLoad db resource.id i :=
      exists_congr (fun i => and_congr_right (fun inside => by rw [ranged_load opens closes inside]))
    simp only [busyList,mode,reduceCtorEq,if_false,if_true,List.mem_insertionSort,List.mem_append,or_and_right,exists_or]
    simp only [Bool.false_eq_true,if_false,false_and,or_false] at busy
    rw [busy,full,loads]
    simp

-- Availability over any range around a window and the checks of a one unit
-- booking of the window answer alike.
theorem availability_answers_booking (cal : Recurrence) (db : Database) (resource : Resource) (payload : ReservationCreate)
    (fromDate toDate : Int) (counted : resource.mode ≠ .shared) (one : payload.quantity = 1) (opens : fromDate ≤ payload.date)
    (closes : lastDate payload.date payload.start payload.finish ≤ toDate) :
    ((∃ entry ∈ busyList cal db resource fromDate toDate,
        Meets (bounds entry) (windowSpan payload.date payload.start payload.finish)) ↔
      ∃ refusal, bookingChecks cal db resource payload = .error refusal) ∧
    ∀ fromDate' toDate', fromDate' ≤ payload.date → lastDate payload.date payload.start payload.finish ≤ toDate' →
      ((∃ entry ∈ busyList cal db resource fromDate toDate,
          Meets (bounds entry) (windowSpan payload.date payload.start payload.finish)) ↔
        ∃ entry ∈ busyList cal db resource fromDate' toDate',
          Meets (bounds entry) (windowSpan payload.date payload.start payload.finish)) := by
  constructor
  · rw [busyList_meets counted payload.window opens closes]
    cases mode : resource.mode with
    | shared => exact absurd mode counted
    | exclusive => simp [exclusive_refuses mode]
    | pooled => simp [pool_refuses mode one]
  · intro fromDate' toDate' opens' closes'
    rw [busyList_meets counted payload.window opens closes,busyList_meets counted payload.window opens' closes']

-- A pool of two whose night is held from 22:00 to 06:00, both units, and a
-- booking of the early morning after.
def nightPool : Resource where
  id := 1
  code := "BEDS"
  resourceType := "BED"
  unitCode := none
  capacity := some 2
  mode := .pooled
  active := true
  poolCapacity := by decide

def nightHold : Reservation where
  id := 1
  resourceId := 1
  reservedDate := 100
  timeWindowStart := clock 22 0
  timeWindowEnd := clock 6 0
  purpose := "night"
  requestedById := some "desk"
  idempotencyKey := "night-100"
  requestFingerprint := ""
  externalRef := none
  quantity := 2
  mode := .pooled
  status := .held
  parentReservationId := none
  window := ten_at_night_to_six
  units := two_units

def nightDatabase : Database := {Database.empty 100 with resources := [nightPool],reservations := [nightHold]}

def earlyBooking : ReservationCreate where
  date := 101
  start := clock 5 0
  finish := clock 7 0
  purpose := "early"
  sentQuantity := none
  externalRef := none
  assignments := []
  window := five_to_seven
  units := unit_by_default

theorem availability_answers_booking_overnight :
    ∃ refusal, bookingChecks plainRules nightDatabase nightPool earlyBooking = .error refusal :=
  (availability_answers_booking plainRules nightDatabase nightPool earlyBooking 101 103 (by decide) (by decide) (by decide)
    (by decide)).1.mp (by decide)

end ChronosLedger
