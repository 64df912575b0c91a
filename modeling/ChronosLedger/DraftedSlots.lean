import ChronosLedger.BatchAgreement
import ChronosLedger.ExactChecks
import ChronosLedger.TimetableRuns

namespace ChronosLedger
open Spans

variable {cal : Recurrence} {db : Database} {cycle : PlanningCycle} {claim : Claim} {slotId : Option Nat}

-- The three questions about a slot, each answered with nothing exactly when
-- nothing of its kind is in the way.
theorem scheduledFor_exact : scheduledFor cal db cycle claim slotId = [] ↔ ∀ other date, SlotOn cal db other date →
    other.resourceId = claim.resourceId → some other.id ≠ slotId → ∀ day, db.orgToday < day →
      OnDate cal cycle claim.rrule claim.dtstart day → ¬ Meets (claimSpan claim day) (slotSpan other date) := by
  refine ⟨fun clear other date on here apart day ahead dated => scheduledFor_clear clear on here apart ahead dated,fun clear => ?_⟩
  refine List.eq_nil_iff_forall_not_mem.mpr (fun entry listed => ?_)
  obtain ⟨booked,there,date,⟨apart,⟨day,falls,ahead,inside,theirs,within_,met⟩,_⟩,_⟩ := slotsAgainstSlot_entry.mp listed
  obtain ⟨opened,here⟩ := mem_bookedSlots.mp there
  have planned : Planned cal db booked date := ⟨opened,theirs,within_⟩
  exact clear booked.slot date planned.slotOn here apart day (by omega) ⟨falls,inside⟩ met

theorem daysFor_exact : daysFor cal db cycle claim slotId = [] ↔ ∀ other, OnRoom db claim.resourceId other →
    db.orgToday ≤ other.row.targetDate → other.row.masterSlotId = none ∨ other.row.masterSlotId ≠ slotId → ∀ day,
      OnDate cal cycle claim.rrule claim.dtstart day → ¬ Meets (claimSpan claim day) (daySpan other) := by
  refine ⟨fun clear other here ahead apart day dated => daysFor_clear clear here ahead apart dated,fun clear => ?_⟩
  unfold daysFor daysAgainstSlot
  refine List.filterMap_eq_nil_iff.mpr (fun other listed => ?_)
  obtain ⟨stored,ahead,_,dated⟩ := mem_datedDays.mp listed
  split
  · rfl
  · rename_i apart
    rw [if_neg]
    intro found_
    obtain ⟨offset,_,both⟩ := List.any_eq_true.mp found_
    simp only [Bool.and_eq_true,decide_eq_true_eq,bounds_dayInterval] at both
    refine clear other ⟨stored,dated⟩ ahead ?_ _ ⟨(occursOn_exact cal).mp both.1.2,both.1.1⟩ both.2.symm
    cases slotId with
    | none => cases other.row.masterSlotId <;> simp
    | some id => exact .inr (fun same => apart ⟨rfl,same⟩)

-- What the fill of one cycle writes: its missing days, first come, first served.
def fillRows (cal : Recurrence) (db : Database) (settings : LedgerSettings) (cycleId : Nat) : List DayFields :=
  FirstCome.pick (fun fields => Foreign db fields ∨ ¬ OwnClear db fields) Clashes []
    ((horizonMissing cal db (horizonWindow db settings).1 (horizonWindow db settings).2 (some cycleId)).map
      (horizonFields db (horizonWindow db settings).1 (horizonWindow db settings).2))

-- The days of the cycle's slots in service are days of the cycle.
def Belongs (db : Database) (cycleId : Nat) : Prop :=
  ∀ booked ∈ openSlots db, booked.cycle.id = cycleId → ∀ row ∈ db.ledger, row.masterSlotId = some booked.slot.id →
    inCycle db (some cycleId) row = true

theorem missing_absent {first last : Int} {cycleId : Nat} (belongs : Belongs db cycleId) {item : Int × StructuralMasterSlot}
    (listed : item ∈ horizonMissing cal db first last (some cycleId)) :
    (first ≤ item.1 ∧ item.1 ≤ last) ∧ hasDay db item.2.id item.1 = false := by
  obtain ⟨⟨booked,planned,same,of⟩,low,high,absent⟩ := mem_horizonMissing.mp listed
  refine ⟨⟨low,high⟩,?_⟩
  rw [← Bool.not_eq_true]
  intro there
  obtain ⟨row,stored,held⟩ := List.any_eq_true.mp there
  obtain ⟨its,date⟩ := of_decide_eq_true held
  refine absent (List.mem_map.mpr ⟨row,List.mem_filter.mpr ⟨stored,?_⟩,by rw [its,date]⟩)
  have inside := belongs booked planned.1 (of cycleId rfl) row stored (by rw [its,same])
  simp [inside,date,low,high]

theorem missing_staggered (slots : (db.slots.map StructuralMasterSlot.id).Nodup) (first last : Int) (cycleId : Option Nat) :
    ((horizonMissing cal db first last cycleId).map (horizonFields db first last)).Pairwise Staggered := by
  refine sorted_staggered slots (horizonMissing_sorted slots first last cycleId) ?_
  intro item listed
  obtain ⟨⟨booked,planned,of,_⟩,_⟩ := mem_horizonMissing.mp listed
  exact of ▸ planned.slotOn.1

theorem fillHorizon_exact (slots : (db.slots.map StructuralMasterSlot.id).Nodup) (settings : LedgerSettings) {cycleId : Nat}
    (belongs : Belongs db cycleId) : fillHorizon cal settings db cycleId = writeAll db (fillRows cal db settings cycleId) := by
  unfold fillHorizon materializeHorizon fillRows
  generalize horizonWindow db settings = window
  obtain ⟨first,last⟩ := window
  dsimp only
  split
  · rename_i none
    rw [none]
    rfl
  · have ranged : ∀ fields ∈ (horizonMissing cal db first last (some cycleId)).map (horizonFields db first last),
        (first ≤ fields.targetDate ∧ fields.targetDate ≤ last) ∧ hasDay db fields.masterSlotId fields.targetDate = false := by
      intro fields listed
      obtain ⟨item,missing,rfl⟩ := List.mem_map.mp listed
      exact missing_absent belongs missing
    rw [withoutOverlaps_pick (fun fields listed => (ranged fields listed).1)]
    have part := @FirstCome.pick_sublist _ (fun fields => Foreign db fields ∨ ¬ OwnClear db fields) _ Clashes _ []
      ((horizonMissing cal db first last (some cycleId)).map (horizonFields db first last))
    rw [writeBatches_whole,batchesOf_flatten settings.batches]
    · rw [batchesOf_flatten settings.batches]
      exact fun fields listed => (ranged fields (part.subset listed)).2
    · rw [batchesOf_flatten settings.batches]
      exact (missing_staggered slots first last _).sublist part

theorem writeAll_kept {rows : List DayFields} {row : DailyLedger} (stored : row ∈ db.ledger) : row ∈ (writeAll db rows).ledger := by
  induction rows generalizing db with
  | nil => exact stored
  | cons fields rest ih => exact @ih (writeDay db fields) (List.mem_append_left _ stored)

theorem writeAll_wrote {rows : List DayFields} {row : DailyLedger} (stored : row ∈ (writeAll db rows).ledger) :
    row ∈ db.ledger ∨ ∃ fields ∈ rows, ∃ id, row = dayRow id fields := by
  induction rows generalizing db with
  | nil => exact .inl stored
  | cons fields rest ih =>
    rcases @ih (writeDay db fields) stored with old | ⟨later,listed,made⟩
    · rcases List.mem_append.mp old with older | new
      · exact .inl older
      · exact .inr ⟨fields,List.mem_cons_self,_,List.mem_singleton.mp new⟩
    · exact .inr ⟨later,List.mem_cons_of_mem _ listed,made⟩

theorem writeAll_each {rows : List DayFields} {fields : DayFields} (listed : fields ∈ rows) :
    ∃ id, dayRow id fields ∈ (writeAll db rows).ledger := by
  induction rows generalizing db with
  | nil => cases listed
  | cons head rest ih =>
    rcases List.mem_cons.mp listed with rfl | later
    · exact ⟨_,@writeAll_kept (writeDay db fields) rest _ (List.mem_append_right _ List.mem_cons_self)⟩
    · exact @ih (writeDay db head) later

end ChronosLedger
