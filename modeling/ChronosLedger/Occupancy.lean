import ChronosLedger.Availability

namespace ChronosLedger
open Spans

theorem bounds_slotInterval (booked : BookedSlot) (day : Int) : bounds (slotInterval booked day) = slotSpan booked.slot day := by
  simp [bounds,slotInterval,slotSpan,windowSpan,combine_date]

theorem bounds_heldInterval (held : Reservation) : bounds (heldInterval held) = heldSpan held := by
  simp [bounds,heldInterval,heldSpan,windowSpan,combine_date]

theorem bounds_dayInterval (day : DatedDay) : bounds (dayInterval day) = daySpan day := by
  simp [bounds,dayInterval,daySpan,windowSpan,combine_date]

theorem openSlot_parts {db : Database} {slot : StructuralMasterSlot} {booked : BookedSlot} :
    openSlot db slot = some booked ↔ booked.slot = slot ∧ db.activity? slot.activityId = some booked.activity ∧
      db.cycle? booked.activity.cycleId = some booked.cycle ∧ slot.retired = false ∧ booked.activity.retired = false ∧
      booked.cycle.operationalStatus = true := by
  unfold openSlot
  constructor
  · intro opened
    split at opened
    · cases opened
    · rename_i activity foundActivity
      split at opened
      · cases opened
      · rename_i cycle foundCycle
        split at opened
        · rename_i live
          cases Option.some.inj opened
          exact ⟨rfl,foundActivity,foundCycle,live⟩
        · cases opened
  · rintro ⟨rfl,foundActivity,foundCycle,unretired,unretiredActivity,inService⟩
    simp [foundActivity,foundCycle,unretired,unretiredActivity,inService]

theorem mem_openSlots {db : Database} {booked : BookedSlot} :
    booked ∈ openSlots db ↔ booked.slot ∈ db.slots ∧ openSlot db booked.slot = some booked := by
  simp only [openSlots,List.mem_filterMap]
  constructor
  · rintro ⟨slot,member,opened⟩
    obtain ⟨rfl,_⟩ := openSlot_parts.mp opened
    exact ⟨member,opened⟩
  · rintro ⟨member,opened⟩
    exact ⟨booked.slot,member,opened⟩

theorem mem_bookedSlots {db : Database} {resourceId : Option Nat} {booked : BookedSlot} :
    booked ∈ bookedSlots db resourceId ↔ booked ∈ openSlots db ∧ booked.slot.resourceId = resourceId := by
  simp [bookedSlots]

-- The slot would put somebody at a door on that date: in service, on a date of
-- its rule, inside its cycle.
def Planned (cal : Recurrence) (db : Database) (booked : BookedSlot) (day : Int) : Prop :=
  booked ∈ openSlots db ∧ Falls cal booked.slot.rrule booked.slot.dtstart day ∧ within (some booked.cycle) day = true

theorem datedDay_parts {db : Database} {resourceId : Option Nat} {row : DailyLedger} {day : DatedDay} :
    datedDay db resourceId row = some day ↔ row.resourceId = resourceId ∧ row.timeWindowStart = some day.start ∧
      row.timeWindowEnd = some day.finish ∧ day.row = row ∧
      day.activityCode = (db.activity? row.activityId).map Activity.activityCode := by
  obtain ⟨dayRow,start,finish,code⟩ := day
  unfold datedDay
  constructor
  · intro dated
    split at dated
    · rename_i opens closes
      split at dated
      · rename_i here
        simp only [Option.some.injEq,DatedDay.mk.injEq] at dated
        obtain ⟨rfl,rfl,rfl,rfl⟩ := dated
        exact ⟨here,opens,closes,rfl,rfl⟩
      · cases dated
    · cases dated
  · intro ⟨here,opens,closes,same,coded⟩
    dsimp only at opens closes same coded
    simp [opens,closes,here,same,coded]

theorem mem_datedDays {db : Database} {resourceId : Option Nat} {since : Int} {until_ : Option Int} {day : DatedDay} :
    day ∈ datedDays db resourceId since until_ ↔ day.row ∈ db.ledger ∧ since ≤ day.row.targetDate ∧
      (∀ last ∈ until_, day.row.targetDate ≤ last) ∧ datedDay db resourceId day.row = some day := by
  simp only [datedDays,List.mem_insertionSort,List.mem_filterMap,List.mem_filter,decide_eq_true_eq]
  constructor
  · rintro ⟨row,⟨member,low,high⟩,dated⟩
    obtain ⟨_,_,_,rfl,_⟩ := datedDay_parts.mp dated
    exact ⟨member,low,high,dated⟩
  · rintro ⟨member,low,high,dated⟩
    exact ⟨day.row,⟨member,low,high⟩,dated⟩

theorem mem_heldReservations {db : Database} {resourceId : Nat} {fromDate toDate : Int} {held : Reservation} :
    held ∈ heldReservations db resourceId fromDate toDate ↔ held ∈ db.reservations ∧ held.resourceId = resourceId ∧
      held.status = .held ∧ fromDate-1 ≤ held.reservedDate ∧ held.reservedDate ≤ toDate := by
  simp [heldReservations]

-- What `occupied` lists: the slots' dates no day stands in for, the days, and
-- the holds, each when its window reaches the range.
theorem mem_occupied {cal : Recurrence} {slots : List BookedSlot} {reservations : List Reservation} {days : List DatedDay}
    {fromDate toDate : Int} {entry : BusyInterval} :
    entry ∈ occupied cal slots reservations days fromDate toDate ↔
      Meets (bounds entry) (midnight fromDate,midnight (toDate+1)) ∧
      ((∃ booked ∈ slots, ∃ day, Falls cal booked.slot.rrule booked.slot.dtstart day ∧ fromDate-1 ≤ day ∧ day ≤ toDate ∧
          within (some booked.cycle) day = true ∧
          (∀ other ∈ days, other.row.targetDate = day → other.row.masterSlotId ≠ some booked.slot.id) ∧
          entry = slotInterval booked day) ∨
        (∃ day ∈ days, entry = dayInterval day) ∨ ∃ held ∈ reservations, entry = heldInterval held) := by
  have settled : ∀ (day : Int) (slot : Nat),
      (days.filterMap (fun d => d.row.masterSlotId.map (fun s => (d.row.targetDate,s)))).contains (day,slot) = false ↔
        ∀ other ∈ days, other.row.targetDate = day → other.row.masterSlotId ≠ some slot := by
    intro day slot
    rw [Bool.eq_false_iff,ne_eq,List.contains_iff_mem,List.mem_filterMap]
    constructor
    · intro absent other member date stands
      exact absent ⟨other,member,by simp [stands,date]⟩
    · rintro free ⟨other,member,equal⟩
      obtain ⟨s,stands,pair⟩ := Option.map_eq_some_iff.mp equal
      obtain ⟨rfl,rfl⟩ := Prod.mk.injEq .. ▸ pair
      exact free other member rfl stands
  simp only [occupied,List.mem_insertionSort,List.mem_append,List.mem_flatMap,List.mem_filterMap,List.mem_filter,
    List.mem_map,decide_eq_true_eq,mem_occurrences]
  constructor
  · rintro ((⟨booked,member,day,⟨falls,low,high⟩,listed⟩ | ⟨⟨day,member,rfl⟩,reaches⟩) | ⟨⟨held,member,rfl⟩,reaches⟩)
    · split at listed
      · cases listed
      · rename_i unsettled
        split at listed
        · cases listed
        · rename_i inside
          split at listed
          · rename_i reaches
            cases Option.some.inj listed
            exact ⟨reaches,.inl ⟨booked,member,day,falls,low,high,by simpa using inside,
              (settled _ _).mp (by simpa using unsettled),rfl⟩⟩
          · cases listed
    · exact ⟨reaches,.inr (.inl ⟨day,member,rfl⟩)⟩
    · exact ⟨reaches,.inr (.inr ⟨held,member,rfl⟩)⟩
  · rintro ⟨reaches,⟨booked,member,day,falls,low,high,inside,free,rfl⟩ | ⟨day,member,rfl⟩ | ⟨held,member,rfl⟩⟩
    · refine .inl (.inl ⟨booked,member,day,⟨falls,low,high⟩,?_⟩)
      rw [(settled day booked.slot.id).mpr free]
      simp [inside,reaches]
    · exact .inl (.inr ⟨⟨day,member,rfl⟩,reaches⟩)
    · exact .inr ⟨⟨held,member,rfl⟩,reaches⟩

-- A window inside a range, on the instants as well as on the dates.
theorem window_inside {fromDate toDate day : Int} {start finish : Time} (opens : fromDate ≤ day)
    (closes : lastDate day start finish ≤ toDate) :
    midnight fromDate ≤ (windowSpan day start finish).1 ∧ (windowSpan day start finish).2 ≤ midnight (toDate+1) :=
  ⟨le_trans (midnight_le.mpr opens) (span_opens day start finish).1,
    le_of_lt (lt_of_lt_of_le (span_closes day start finish) (midnight_le.mpr (by omega)))⟩

-- Whatever meets a window is dated in reach of any range around the window.
theorem meets_dated {fromDate toDate day d : Int} {start finish t g : Time} (opens : fromDate ≤ day)
    (closes : lastDate day start finish ≤ toDate) (met : Meets (windowSpan d t g) (windowSpan day start finish)) :
    fromDate-1 ≤ d ∧ d ≤ toDate := by
  have near := meets_near met
  have early := midnight_lt.mp (lt_of_le_of_lt (span_opens d t g).1 (lt_trans met.1 (span_closes day start finish)))
  omega

def OnRoom (db : Database) (resourceId : Option Nat) (day : DatedDay) : Prop :=
  day.row ∈ db.ledger ∧ datedDay db resourceId day.row = some day

-- A generated day of the slot and date is on the room, at any window.
def StandsIn (db : Database) (resourceId : Option Nat) (date : Int) (slotId : Nat) : Prop :=
  ∃ day, OnRoom db resourceId day ∧ day.row.targetDate = date ∧ day.row.masterSlotId = some slotId

-- What of a resource's timetable takes some of a window, with no range asked
-- about: an occurrence no day stands in for, or a generated day.
def TimetableMeets (cal : Recurrence) (db : Database) (resourceId : Option Nat) (window : Int × Int) : Prop :=
  (∃ booked day, Planned cal db booked day ∧ booked.slot.resourceId = resourceId ∧
    ¬ StandsIn db resourceId day booked.slot.id ∧ Meets (slotSpan booked.slot day) window) ∨
  ∃ day, OnRoom db resourceId day ∧ Meets (daySpan day) window

def HoldMeets (db : Database) (resourceId : Nat) (window : Int × Int) : Prop :=
  ∃ held ∈ db.reservations, held.resourceId = resourceId ∧ held.status = .held ∧ Meets (heldSpan held) window

theorem mem_bookedDays {db : Database} {resourceId : Option Nat} {fromDate toDate : Int} {day : DatedDay} :
    day ∈ bookedDays db resourceId fromDate toDate ↔
      OnRoom db resourceId day ∧ fromDate-1 ≤ day.row.targetDate ∧ day.row.targetDate ≤ toDate := by
  simp only [bookedDays,mem_datedDays,OnRoom,Option.mem_some_iff,forall_eq']
  tauto

-- A day of the slot and date found among the days read for a range around the
-- date is a day of the slot and date, and the other way round.
theorem unsettled_exact {db : Database} {resourceId : Option Nat} {fromDate toDate date : Int} {slotId : Nat}
    (low : fromDate-1 ≤ date) (high : date ≤ toDate) :
    (∀ other ∈ bookedDays db resourceId fromDate toDate, other.row.targetDate = date → other.row.masterSlotId ≠ some slotId) ↔
      ¬ StandsIn db resourceId date slotId := by
  constructor
  · rintro free ⟨day,here,rfl,stands⟩
    exact free day (mem_bookedDays.mpr ⟨here,low,high⟩) rfl stands
  · intro absent other member dated stands
    exact absent ⟨other,(mem_bookedDays.mp member).1,dated,stands⟩

-- The busy entries that meet a window are the same for every range around it.
theorem occupied_meets (cal : Recurrence) (db : Database) (resourceId : Nat) {fromDate toDate day : Int} {start finish : Time}
    (opens : fromDate ≤ day) (closes : lastDate day start finish ≤ toDate) (holds : Bool) :
    (∃ entry ∈ occupied cal (bookedSlots db (some resourceId)) (if holds then heldReservations db resourceId fromDate toDate else [])
        (bookedDays db (some resourceId) fromDate toDate) fromDate toDate, Meets (bounds entry) (windowSpan day start finish)) ↔
      TimetableMeets cal db (some resourceId) (windowSpan day start finish) ∨
        holds = true ∧ HoldMeets db resourceId (windowSpan day start finish) := by
  have inside := window_inside opens closes
  constructor
  · rintro ⟨entry,listed,met⟩
    obtain ⟨_,⟨booked,member,d,falls,low,high,within_,free,rfl⟩ | ⟨other,member,rfl⟩ | ⟨held,member,rfl⟩⟩ := mem_occupied.mp listed
    · obtain ⟨live,here⟩ := mem_bookedSlots.mp member
      rw [bounds_slotInterval] at met
      exact .inl (.inl ⟨booked,d,⟨live,falls,within_⟩,here,(unsettled_exact low high).mp free,met⟩)
    · rw [bounds_dayInterval] at met
      exact .inl (.inr ⟨other,(mem_bookedDays.mp member).1,met⟩)
    · cases holds with
      | false => cases member
      | true =>
        obtain ⟨stored,here,taken,_⟩ := mem_heldReservations.mp member
        rw [bounds_heldInterval] at met
        exact .inr ⟨rfl,held,stored,here,taken,met⟩
  · rintro ((⟨booked,d,⟨live,falls,within_⟩,here,free,met⟩ | ⟨other,here,met⟩) | ⟨rfl,held,stored,here,taken,met⟩)
    · obtain ⟨low,high⟩ := meets_dated opens closes met
      rw [← bounds_slotInterval] at met
      exact ⟨_,mem_occupied.mpr ⟨met.widen inside.1 inside.2,.inl ⟨booked,mem_bookedSlots.mpr ⟨live,here⟩,d,falls,low,high,within_,
        (unsettled_exact low high).mpr free,rfl⟩⟩,met⟩
    · obtain ⟨low,high⟩ := meets_dated opens closes met
      rw [← bounds_dayInterval] at met
      exact ⟨_,mem_occupied.mpr ⟨met.widen inside.1 inside.2,.inr (.inl ⟨other,mem_bookedDays.mpr ⟨here,low,high⟩,rfl⟩)⟩,met⟩
    · obtain ⟨low,high⟩ := meets_dated opens closes met
      rw [← bounds_heldInterval] at met
      exact ⟨_,mem_occupied.mpr ⟨met.widen inside.1 inside.2,.inr (.inr ⟨held,
        by simpa using mem_heldReservations.mpr ⟨stored,here,taken,low,high⟩,rfl⟩)⟩,met⟩

theorem windowConflicts_exact {cal : Recurrence} {db : Database} {resourceId : Nat} {day : Int} {start finish : Time} {holds : Bool} :
    windowConflicts cal db resourceId day start finish holds = [] ↔
      ¬ TimetableMeets cal db (some resourceId) (windowSpan day start finish) ∧
        (holds = true → ¬ HoldMeets db resourceId (windowSpan day start finish)) := by
  have exact_ := occupied_meets cal db resourceId (le_refl day) (le_refl (lastDate day start finish)) holds
  unfold windowConflicts clashing
  rw [List.filter_eq_nil_iff]
  simp only [decide_eq_true_eq]
  rw [← not_iff_not]
  push Not
  rw [exact_]
  tauto

end ChronosLedger
