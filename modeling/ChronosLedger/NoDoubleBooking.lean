import Mathlib.Data.List.Pairwise
import ChronosLedger.TimetableSound

namespace ChronosLedger
open Spans

variable {cal : Recurrence} {db : Database}

-- Where an interval comes from: its reservation, its slot, or the day itself
-- when the slot it was generated for is gone.
def sourceOf (entry : BusyInterval) : RowRef :=
  match entry.masterSlotId with
  | some id => .slot id
  | none => entry.row

def Generated (entry : BusyInterval) : Prop := ∃ id, entry.row = .day id

-- What is read off a resource for some dates, every hold included.
def taken (cal : Recurrence) (db : Database) (resourceId : Nat) (fromDate toDate : Int) : List BusyInterval :=
  occupied cal (bookedSlots db (some resourceId)) (heldReservations db resourceId fromDate toDate)
    (bookedDays db (some resourceId) fromDate toDate) fromDate toDate

def SourcesApart (cal : Recurrence) (db : Database) : Prop :=
  ∀ resource ∈ db.resources, resource.mode = .exclusive → ∀ fromDate toDate, db.orgToday+1 ≤ fromDate →
    ∀ x ∈ taken cal db resource.id fromDate toDate, ∀ y ∈ taken cal db resource.id fromDate toDate,
      sourceOf x ≠ sourceOf y → ¬ Meets (bounds x) (bounds y)

-- The three kinds of interval, with what each says of the tables.
inductive Shown (cal : Recurrence) (db : Database) (room : Nat) (entry : BusyInterval) : Prop where
  | slot {slot : StructuralMasterSlot} (on : SlotOn cal db slot entry.date) (here : slot.resourceId = some room)
      (unsettled : ¬ Settled db room entry.date slot.id) (span : bounds entry = slotSpan slot entry.date)
      (source : sourceOf entry = .slot slot.id) (row : entry.row = .slot slot.id) (timetabled : entry.reservationId = none)
  | day {row : DailyLedger} {slotId : Nat} (stored : row ∈ db.ledger) (takes : Takes row room (bounds entry))
      (date : entry.date = row.targetDate) (of : row.masterSlotId = some slotId) (source : sourceOf entry = .slot slotId)
      (timetabled : entry.reservationId = none)
  | hold {held : Reservation} (stored : held ∈ db.reservations) (on : held.resourceId = room) (taken : held.status = .held)
      (span : bounds entry = heldSpan held) (date : entry.date = held.reservedDate) (source : sourceOf entry = .reservation held.id)

-- From tomorrow on, what is shown is dated today at the earliest.
theorem taken_shown (order : InOrder cal db) {room : Nat} {fromDate toDate : Int} (ahead : db.orgToday+1 ≤ fromDate)
    {entry : BusyInterval} (listed : entry ∈ taken cal db room fromDate toDate) : db.orgToday ≤ entry.date ∧ Shown cal db room entry := by
  obtain ⟨_,⟨booked,member,d,falls,low,high,inside,free,rfl⟩ | ⟨other,member,rfl⟩ | ⟨held,member,rfl⟩⟩ := mem_occupied.mp listed
  · obtain ⟨live,here⟩ := mem_bookedSlots.mp member
    refine ⟨show db.orgToday ≤ d by omega,.slot (Planned.slotOn ⟨live,falls,inside⟩) here ?_ (bounds_slotInterval booked d) rfl rfl rfl⟩
    exact fun settled => (unsettled_exact low high).mp free (standsIn_settled.mpr settled)
  · obtain ⟨here,low,_⟩ := mem_bookedDays.mp member
    obtain ⟨stored,takes⟩ := onRoom_takes here
    have late : db.orgToday ≤ other.row.targetDate := by omega
    cases of : other.row.masterSlotId with
    | none =>
      have early := order.behind other.row stored of
      omega
    | some id => exact ⟨late,.day stored (bounds_dayInterval other ▸ takes) rfl of (by simp [sourceOf,dayInterval,of]) rfl⟩
  · obtain ⟨stored,on,standing,low,_⟩ := mem_heldReservations.mp member
    exact ⟨show db.orgToday ≤ held.reservedDate by omega,.hold stored on standing (bounds_heldInterval held) rfl rfl⟩

-- On an exclusive resource every hold counts against the timetable.
theorem exclusive_counts (fits : Fits db) {resource : Resource} (stored : resource ∈ db.resources) (exclusive : resource.mode = .exclusive)
    {held : Reservation} (there : held ∈ db.reservations) (on : held.resourceId = resource.id) (standing : held.status = .held)
    (ahead : db.orgToday ≤ held.reservedDate) : held ∈ toCome db resource.id ∧ Counts db resource.id held := by
  have coming : held ∈ toCome db resource.id := mem_toCome.mpr ⟨mem_heldOn.mpr ⟨there,on,standing⟩,by omega⟩
  have mode := fits.mode resource stored held coming
  exact ⟨coming,there,on,standing,by rw [mode,exclusive]; exact ResourceMode.noConfusion,ahead⟩

-- A class and a hold.
theorem shown_hold (sound : Sound cal db) {room : Nat} {entry : BusyInterval} (shown : Shown cal db room entry)
    (late : db.orgToday ≤ entry.date) (kind : ∀ id, sourceOf entry ≠ .reservation id)
    {held : Reservation} (counts : Counts db room held) : ¬ Meets (bounds entry) (heldSpan held) := by
  cases shown with
  | slot on here unsettled span =>
    rw [span]
    exact sound.nothing.slotHolds _ _ _ _ on here unsettled late counts
  | day stored takes date => exact sound.nothing.dayHolds _ _ _ _ stored takes (date ▸ late) counts
  | hold _ _ _ _ _ source => exact absurd source (kind _)

-- A term that ends today with a class tonight from ten to six, and a term that
-- was drafted, filled and opened before it with a class tomorrow at five. The
-- dates of the night class that were looked at begin tomorrow, and it has none.
def classRow (memberId email activityCode day start finish : String) : CsvRow :=
  ⟨memberId,"Member",email,activityCode,"Title","SCI",day,start,finish,"registrar","HALL"⟩

def nightCalls : List Operation :=
  [.createCycle ⟨"term",90,100,true,by decide⟩ registrar,.createCycle ⟨"next",101,130,false,by decide⟩ registrar,
    .uploadMatrix ⟨requiredColumns,[classRow "m1" "m1@school" "EARLY" "3" "05:00" "07:00"]⟩ 2 false registrar,
    .openCycle 2 registrar,
    .uploadMatrix ⟨requiredColumns,[classRow "m1" "m1@school" "LATE" "2" "22:00" "06:00"]⟩ 1 false registrar]

def nightDay : Database := performAll plainRuntime (staffed 100) nightCalls

def hall : Resource := ⟨1,"HALL","ROOM",none,none,.exclusive,true,ResourceMode.noConfusion⟩

def lateTonight : BusyInterval := ⟨.slot 2,100,clock 22 0,101,clock 6 0,some 2,some "LATE",some 2,none⟩
def earlyTomorrow : BusyInterval := ⟨.slot 1,101,clock 5 0,101,clock 7 0,some 1,some "EARLY",some 1,none⟩

end ChronosLedger
