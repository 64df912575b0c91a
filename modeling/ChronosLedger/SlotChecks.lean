import ChronosLedger.Occupancy
import ChronosLedger.Schedule

namespace ChronosLedger
open Spans

variable {cal : Recurrence}

-- A slot is in service in a cycle: neither it nor its activity is retired, and
-- the cycle, which is the activity's, is open.
def InService (db : Database) (slot : StructuralMasterSlot) (cycle : PlanningCycle) : Prop :=
  ∃ activity, db.activity? slot.activityId = some activity ∧ db.cycle? activity.cycleId = some cycle ∧
    slot.retired = false ∧ activity.retired = false ∧ cycle.operationalStatus = true

theorem InService.unique {db : Database} {slot : StructuralMasterSlot} {one two : PlanningCycle} (left : InService db slot one)
    (right : InService db slot two) : one = two := by
  obtain ⟨a,known,found,_⟩ := left
  obtain ⟨b,known',found',_⟩ := right
  rw [known] at known'
  cases Option.some.inj known'
  rw [found] at found'
  exact Option.some.inj found'

-- The date is one of the rule's and inside the cycle.
def OnDate (cal : Recurrence) (cycle : PlanningCycle) (rule : String) (dtstart day : Int) : Prop :=
  Falls cal rule dtstart day ∧ within (some cycle) day = true

def SlotOn (cal : Recurrence) (db : Database) (slot : StructuralMasterSlot) (day : Int) : Prop :=
  slot ∈ db.slots ∧ ∃ cycle, InService db slot cycle ∧ OnDate cal cycle slot.rrule slot.dtstart day

theorem planned_parts {db : Database} {booked : BookedSlot} {day : Int} : Planned cal db booked day ↔
    booked.slot ∈ db.slots ∧ db.activity? booked.slot.activityId = some booked.activity ∧
      db.cycle? booked.activity.cycleId = some booked.cycle ∧ booked.slot.retired = false ∧ booked.activity.retired = false ∧
      booked.cycle.operationalStatus = true ∧ OnDate cal booked.cycle booked.slot.rrule booked.slot.dtstart day := by
  simp only [Planned,mem_openSlots,openSlot_parts,OnDate]
  tauto

theorem Planned.slotOn {db : Database} {booked : BookedSlot} {day : Int} (planned : Planned cal db booked day) :
    SlotOn cal db booked.slot day := by
  obtain ⟨stored,activity,cycle,live,open_,service,dated⟩ := planned_parts.mp planned
  exact ⟨stored,booked.cycle,⟨booked.activity,activity,cycle,live,open_,service⟩,dated⟩

theorem SlotOn.planned {db : Database} {slot : StructuralMasterSlot} {day : Int} (on : SlotOn cal db slot day) :
    ∃ booked, booked.slot = slot ∧ Planned cal db booked day := by
  obtain ⟨stored,cycle,⟨activity,known,found,live⟩,dated⟩ := on
  exact ⟨⟨slot,activity,cycle⟩,rfl,planned_parts.mpr ⟨stored,known,found,live.1,live.2.1,live.2.2,dated⟩⟩

theorem meets_offset {d e : Int} {s f t g : Time} (met : Meets (windowSpan d s f) (windowSpan e t g)) :
    ∃ offset ∈ offsets, e+offset = d := by
  have near := meets_near met
  refine ⟨d-e,?_,by omega⟩
  have cases_ : d-e = -1 ∨ d-e = 0 ∨ d-e = 1 := by omega
  simpa [offsets] using cases_

def claimSpan (claim : Claim) (day : Int) : Int × Int := windowSpan day claim.start claim.finish

theorem claimSpan_claimOf (slot : StructuralMasterSlot) (day : Int) : claimSpan (claimOf slot) day = slotSpan slot day := rfl

-- A day that no later change of its slot moves: in use, or today's.
def Fixed (db : Database) (row : DailyLedger) : Prop := inUse db row.id = true ∨ row.targetDate = db.orgToday

-- What the three checks of a slot established, with no range asked about. The
-- timetable is looked at from tomorrow, the holds and the days from today.
structure ClearOf (cal : Recurrence) (db : Database) (cycle : PlanningCycle) (claim : Claim) (slotId : Option Nat) : Prop where
  holds : ∀ held ∈ db.reservations, some held.resourceId = claim.resourceId → held.status = .held → held.mode ≠ .shared →
    db.orgToday ≤ held.reservedDate → ∀ day, OnDate cal cycle claim.rrule claim.dtstart day →
      ¬ Meets (claimSpan claim day) (heldSpan held)
  slots : ∀ other date, SlotOn cal db other date → other.resourceId = claim.resourceId → some other.id ≠ slotId →
    ∀ day, db.orgToday < day → OnDate cal cycle claim.rrule claim.dtstart day → ¬ Meets (claimSpan claim day) (slotSpan other date)
  days : ∀ other, OnRoom db claim.resourceId other → Fixed db other.row → db.orgToday ≤ other.row.targetDate →
    other.row.masterSlotId = none ∨ other.row.masterSlotId ≠ slotId →
    ∀ day, OnDate cal cycle claim.rrule claim.dtstart day → ¬ Meets (claimSpan claim day) (daySpan other)

theorem heldFor_clear {db : Database} {cycle : PlanningCycle} {claim : Claim} (clear : heldFor cal db cycle claim = [])
    {held : Reservation} (stored : held ∈ db.reservations) (here : some held.resourceId = claim.resourceId)
    (taken : held.status = .held) (counted : held.mode ≠ .shared) (ahead : db.orgToday ≤ held.reservedDate) {day : Int}
    (dated : OnDate cal cycle claim.rrule claim.dtstart day) : ¬ Meets (claimSpan claim day) (heldSpan held) := by
  intro met
  obtain ⟨offset,listed,rfl⟩ := meets_offset met
  unfold heldFor heldAgainstSlot at clear
  have none := List.filterMap_eq_nil_iff.mp clear held (List.mem_filter.mpr ⟨stored,by simp [here,taken,counted,ahead]⟩)
  split at none
  · cases none
  · rename_i free
    apply free
    refine List.any_eq_true.mpr ⟨offset,listed,?_⟩
    have falls := (occursOn_exact cal).mpr dated.1
    simp only [dated.2,falls,Bool.true_and,Bool.and_true]
    exact decide_eq_true met

theorem daysFor_clear {db : Database} {cycle : PlanningCycle} {claim : Claim} {slotId : Option Nat}
    (clear : daysFor cal db cycle claim slotId = []) {other : DatedDay} (here : OnRoom db claim.resourceId other)
    (ahead : db.orgToday ≤ other.row.targetDate) (apart : other.row.masterSlotId = none ∨ other.row.masterSlotId ≠ slotId)
    {day : Int} (dated : OnDate cal cycle claim.rrule claim.dtstart day) : ¬ Meets (claimSpan claim day) (daySpan other) := by
  intro met
  obtain ⟨offset,listed,rfl⟩ := meets_offset met
  unfold daysFor daysAgainstSlot at clear
  have none := List.filterMap_eq_nil_iff.mp clear other (mem_datedDays.mpr ⟨here.1,ahead,by simp,here.2⟩)
  split at none
  · rename_i own
    rcases apart with nobody | different
    · rw [← own.2,nobody] at own
      cases own.1
    · exact different own.2
  · split at none
    · cases none
    · rename_i free
      apply free
      refine List.any_eq_true.mpr ⟨offset,listed,?_⟩
      have falls := (occursOn_exact cal).mpr dated.1
      rw [dated.2,falls,bounds_dayInterval]
      exact decide_eq_true met.symm

theorem firstMeeting_none {ours theirs : List Int} {start finish theirStart theirEnd : Time}
    (none : firstMeeting ours start finish theirs theirStart theirEnd = none) {day date : Int} (mine : day ∈ ours)
    (other : date ∈ theirs) : ¬ Meets (windowSpan day start finish) (windowSpan date theirStart theirEnd) := by
  intro met
  obtain ⟨offset,listed,rfl⟩ := meets_offset met.symm
  have each := List.findSome?_eq_none_iff.mp (List.findSome?_eq_none_iff.mp none day mine) offset listed
  split at each
  · cases each
  · rename_i free
    apply free
    rw [List.contains_iff_mem.mpr other,Bool.true_and]
    exact decide_eq_true met

theorem scheduledFor_clear {db : Database} {cycle : PlanningCycle} {claim : Claim} {slotId : Option Nat}
    (clear : scheduledFor cal db cycle claim slotId = []) {other : StructuralMasterSlot} {date : Int}
    (on : SlotOn cal db other date) (here : other.resourceId = claim.resourceId) (apart : some other.id ≠ slotId) {day : Int}
    (ahead : db.orgToday < day) (dated : OnDate cal cycle claim.rrule claim.dtstart day) :
    ¬ Meets (claimSpan claim day) (slotSpan other date) := by
  intro met
  obtain ⟨booked,rfl,planned⟩ := on.planned
  have near := meets_near met
  have theirs := planned.2.2
  have mine := dated.2
  simp only [within,decide_eq_true_eq] at theirs mine
  unfold scheduledFor slotsAgainstSlot at clear
  have none := List.filterMap_eq_nil_iff.mp clear booked (mem_bookedSlots.mpr ⟨planned.1,here⟩)
  rw [if_neg apart] at none
  dsimp only at none
  split at none
  · omega
  · split at none
    · rename_i empty
      rw [List.isEmpty_iff] at empty
      have listed := (mem_occurrences cal).mpr ⟨planned.2.1,show max (max (max (db.orgToday+1) (booked.cycle.dateBoundsStart-1))
        cycle.dateBoundsStart-1) booked.cycle.dateBoundsStart ≤ date by omega,show date ≤ min (min (booked.cycle.dateBoundsEnd+1)
        cycle.dateBoundsEnd+1) booked.cycle.dateBoundsEnd by omega⟩
      rw [empty] at listed
      cases listed
    · rw [Option.map_eq_none_iff] at none
      exact firstMeeting_none none ((mem_occurrences cal).mpr ⟨dated.1,by omega,by omega⟩)
        ((mem_occurrences cal).mpr ⟨planned.2.1,by omega,by omega⟩) met

-- The three checks of a slot together, as every path that places one runs them.
theorem checks_clear {db : Database} {cycle : PlanningCycle} {claim : Claim} {slotId : Option Nat}
    (held : heldFor cal db cycle claim = []) (scheduled : scheduledFor cal db cycle claim slotId = [])
    (days : daysFor cal db cycle claim slotId = []) : ClearOf cal db cycle claim slotId where
  holds := fun _ stored here taken counted ahead _ dated => heldFor_clear held stored here taken counted ahead dated
  slots := fun _ _ on here apart _ ahead dated => scheduledFor_clear scheduled on here apart ahead dated
  days := fun _ here _ ahead apart _ dated => daysFor_clear days here ahead apart dated

end ChronosLedger
