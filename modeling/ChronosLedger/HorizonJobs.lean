import ChronosLedger.DaysDisjoint

namespace ChronosLedger
open Spans

variable {cal : Recurrence} {db : Database}

-- A day without the number the table gave it.
def unnumbered (row : DailyLedger) : DailyLedger := {row with id := 0}

-- The one-day job, run for each date of a range in order.
def dailyJobs (cal : Recurrence) (db : Database) (first last : Int) : Database :=
  (datesBetween first last).foldl (fun db day => (generateDailyLedgerEntries cal db day).1) db

def offerAll (db : Database) (rows : List DayFields) : Database := rows.foldl (fun db fields => (insertDay db fields).1) db

theorem insertDay_frame (db : Database) (fields : DayFields) : ∃ ledger, (insertDay db fields).1 = {db with ledger := ledger} := by
  unfold insertDay
  split
  · exact ⟨db.ledger,rfl⟩
  · split
    · exact ⟨db.ledger,rfl⟩
    · exact ⟨_,rfl⟩

theorem offerAll_frame (rows : List DayFields) (db : Database) : ∃ ledger, offerAll db rows = {db with ledger := ledger} := by
  induction rows generalizing db with
  | nil => exact ⟨db.ledger,rfl⟩
  | cons fields rest ih =>
    obtain ⟨ledger,one⟩ := insertDay_frame db fields
    obtain ⟨later,all⟩ := ih (insertDay db fields).1
    refine ⟨later,?_⟩
    change offerAll (insertDay db fields).1 rest = _
    rw [all,one]

-- The day a slot is due on a date, with the leave its lead has.
def dueFields (db : Database) (day : Int) (slot : StructuralMasterSlot) : DayFields :=
  dayFields slot day (leaveState (approvedLeave db slot.primaryLeadId day))

def dueOn (cal : Recurrence) (db : Database) (day : Int) : List BookedSlot :=
  (candidates db day).filter (fun booked => occursOn cal booked.slot.rrule booked.slot.dtstart day)

theorem insertDay_there {fields : DayFields} (there : hasDay db fields.masterSlotId fields.targetDate = true) :
    (insertDay db fields).1 = db := by
  unfold insertDay
  rw [if_pos there]
  split <;> rfl

theorem generateSlots_offers (day : Int) (slots : List BookedSlot) (db : Database) :
    (generateSlots day db slots).1 = offerAll db (slots.map (fun booked => dueFields db day booked.slot)) := by
  induction slots generalizing db with
  | nil => rfl
  | cons booked rest ih =>
    obtain ⟨ledger,framed⟩ := insertDay_frame db (dueFields db day booked.slot)
    have later : (generateSlots day (insertDay db (dueFields db day booked.slot)).1 rest).1 =
        offerAll (insertDay db (dueFields db day booked.slot)).1 (rest.map (fun other => dueFields db day other.slot)) := by
      rw [ih,framed]
      rfl
    unfold generateSlots
    split
    · rename_i there
      rw [ih]
      change _ = offerAll (insertDay db (dueFields db day booked.slot)).1 _
      rw [insertDay_there there]
    · exact later

theorem dailyJobs_offers (first last : Int) (db : Database) :
    dailyJobs cal db first last =
      offerAll db ((datesBetween first last).flatMap (fun day => (dueOn cal db day).map (fun booked => dueFields db day booked.slot))) := by
  unfold dailyJobs
  have general : ∀ (days : List Int) (ledger : List DailyLedger),
      days.foldl (fun db day => (generateDailyLedgerEntries cal db day).1) {db with ledger := ledger} =
        offerAll {db with ledger := ledger} (days.flatMap (fun day => (dueOn cal db day).map (fun booked => dueFields db day booked.slot))) := by
    intro days
    induction days with
    | nil => exact fun _ => rfl
    | cons day rest ih =>
      intro ledger
      have one : (generateDailyLedgerEntries cal {db with ledger := ledger} day).1 =
          offerAll {db with ledger := ledger} ((dueOn cal db day).map (fun booked => dueFields db day booked.slot)) :=
        generateSlots_offers day _ _
      obtain ⟨after,framed⟩ := offerAll_frame ((dueOn cal db day).map (fun booked => dueFields db day booked.slot)) {db with ledger := ledger}
      rw [List.foldl_cons,one,framed,ih after,List.flatMap_cons]
      unfold offerAll at framed ⊢
      rw [List.foldl_append,framed]
  exact general _ db.ledger

-- Days that are already there change nothing when offered.
theorem hasDay_insert (fields : DayFields) {slotId : Nat} {day : Int} (there : hasDay db slotId day = true) :
    hasDay (insertDay db fields).1 slotId day = true := by
  unfold insertDay
  split
  · exact there
  · split
    · exact there
    · rw [hasDay_write,there,Bool.true_or]

theorem offerAll_missing (rows : List DayFields) (before db : Database)
    (grown : ∀ slotId day, hasDay before slotId day = true → hasDay db slotId day = true) :
    offerAll db rows = offerAll db (rows.filter (fun fields => !hasDay before fields.masterSlotId fields.targetDate)) := by
  induction rows generalizing db with
  | nil => rfl
  | cons fields rest ih =>
    have later := ih (insertDay db fields).1 (fun slotId day there => hasDay_insert fields (grown slotId day there))
    cases there : hasDay before fields.masterSlotId fields.targetDate with
    | true =>
      rw [List.filter_cons_of_neg (by simp [there])]
      have none := insertDay_there (grown _ _ there)
      rw [none] at later
      change offerAll (insertDay db fields).1 rest = _
      rw [none,later]
    | false =>
      rw [List.filter_cons_of_pos (by simp [there])]
      exact later

theorem dueOn_mem {day : Int} {booked : BookedSlot} : booked ∈ dueOn cal db day ↔ Planned cal db booked day := by
  simp only [dueOn,candidates,List.mem_filter,List.mem_insertionSort,decide_eq_true_eq,Planned,within,occursOn_exact]
  tauto

theorem horizonHave_exact {first last day : Int} {slotId : Nat} (low : first ≤ day) (high : day ≤ last) :
    (some slotId,day) ∈ horizonHave db first last none ↔ hasDay db slotId day = true := by
  simp only [horizonHave,inCycle,hasDay,List.mem_map,List.mem_filter,List.any_eq_true,decide_eq_true_eq,Prod.mk.injEq]
  constructor
  · rintro ⟨row,⟨stored,_⟩,of,date⟩
    exact ⟨row,stored,of,date⟩
  · rintro ⟨row,stored,of,date⟩
    exact ⟨row,⟨stored,by omega,by omega,trivial⟩,of,date⟩

-- Earlier date first and the older slot first within it.
def Sooner (one two : Int × StructuralMasterSlot) : Prop := one.1 < two.1 ∨ one.1 = two.1 ∧ one.2.id < two.2.id

instance : Std.Irrefl Sooner := ⟨fun one sooner => by unfold Sooner at sooner; omega⟩
instance : Std.Antisymm Sooner := ⟨fun one two sooner later => by unfold Sooner at sooner later; omega⟩

theorem openSlots_distinct (slots : (db.slots.map StructuralMasterSlot.id).Nodup) :
    (openSlots db).Pairwise (fun a b => a.slot.id ≠ b.slot.id) := by
  unfold openSlots
  have distinct := List.pairwise_map.mp slots
  refine List.pairwise_filterMap.mpr (distinct.imp ?_)
  intro a b different one opened two opened'
  rw [(openSlot_parts.mp opened).1,(openSlot_parts.mp opened').1]
  exact different

theorem sorted_distinct {rows : List BookedSlot} (distinct : rows.Pairwise (fun a b => a.slot.id ≠ b.slot.id)) :
    (rows.insertionSort (fun a b => a.slot.id ≤ b.slot.id)).Pairwise (fun a b => a.slot.id < b.slot.id) := by
  have sorted : (rows.insertionSort (fun a b => a.slot.id ≤ b.slot.id)).Pairwise (fun a b => a.slot.id ≤ b.slot.id) :=
    List.pairwise_insertionSort _ _
  have apart := (List.perm_insertionSort (fun a b : BookedSlot => a.slot.id ≤ b.slot.id) rows).symm.pairwise distinct (fun {a b} other => other.symm)
  exact (sorted.and apart).imp (fun both => Nat.lt_of_le_of_ne both.1 both.2)

theorem dueOn_sorted (slots : (db.slots.map StructuralMasterSlot.id).Nodup) (day : Int) :
    (dueOn cal db day).Pairwise (fun a b => a.slot.id < b.slot.id) :=
  (sorted_distinct ((openSlots_distinct slots).filter _)).filter _

-- The dates of the range that have no day yet, in the order the jobs take them.
def missingDates (cal : Recurrence) (db : Database) (first last : Int) : List (Int × StructuralMasterSlot) :=
  (datesBetween first last).flatMap (fun day =>
    ((dueOn cal db day).filter (fun booked => !hasDay db booked.slot.id day)).map (fun booked => (day,booked.slot)))

theorem mem_missingDates {first last : Int} {item : Int × StructuralMasterSlot} : item ∈ missingDates cal db first last ↔
    (first ≤ item.1 ∧ item.1 ≤ last) ∧ (∃ booked, Planned cal db booked item.1 ∧ booked.slot = item.2) ∧ hasDay db item.2.id item.1 = false := by
  simp only [missingDates,List.mem_flatMap,mem_datesBetween,List.mem_map,List.mem_filter,dueOn_mem,Bool.not_eq_true']
  constructor
  · rintro ⟨day,range,booked,⟨planned,absent⟩,rfl⟩
    exact ⟨range,⟨booked,planned,rfl⟩,absent⟩
  · rintro ⟨range,⟨booked,planned,same⟩,absent⟩
    exact ⟨item.1,range,booked,⟨planned,same ▸ absent⟩,by rw [same]⟩

theorem missingDates_sorted (slots : (db.slots.map StructuralMasterSlot.id).Nodup) (first last : Int) :
    (missingDates cal db first last).Pairwise Sooner := by
  refine List.pairwise_flatMap.mpr ⟨fun day _ => ?_,(datesBetween_ordered first last).imp ?_⟩
  · exact List.pairwise_map.mpr (((dueOn_sorted slots day).filter _).imp (fun less => .inr ⟨rfl,less⟩))
  · intro one two earlier x left y right
    obtain ⟨_,_,rfl⟩ := List.mem_map.mp left
    obtain ⟨_,_,rfl⟩ := List.mem_map.mp right
    exact .inl earlier

theorem horizonMissing_sorted (slots : (db.slots.map StructuralMasterSlot.id).Nodup) (first last : Int) (cycleId : Option Nat) :
    (horizonMissing cal db first last cycleId).Pairwise Sooner := by
  unfold horizonMissing
  dsimp only
  generalize horizonHave db first last cycleId = have_
  have keys : ((horizonSlots db first last cycleId).flatMap (fun booked =>
      (occurrences cal booked.slot.rrule booked.slot.dtstart (max first booked.cycle.dateBoundsStart)
        (min last booked.cycle.dateBoundsEnd)).filterMap (fun day =>
          if (some booked.slot.id,day) ∈ have_ then none else some (day,booked.slot)))).Pairwise
      (fun one two => one.1 ≠ two.1 ∨ one.2.id ≠ two.2.id) := by
    refine List.pairwise_flatMap.mpr ⟨fun booked _ => List.pairwise_filterMap.mpr ?_,?_⟩
    · refine (occurrences_ordered cal _ _ _ _).imp (fun {a b} less x left y right => ?_)
      split at left
      · cases left
      · split at right
        · cases right
        · cases left
          cases right
          exact .inl (ne_of_lt less)
    · refine (sorted_distinct ((openSlots_distinct slots).filter _)).imp (fun {a b} less x left y right => ?_)
      obtain ⟨_,_,listed⟩ := List.mem_filterMap.mp left
      obtain ⟨_,_,listed'⟩ := List.mem_filterMap.mp right
      split at listed
      · cases listed
      · split at listed'
        · cases listed'
        · cases listed
          cases listed'
          exact .inr (Nat.ne_of_lt less)
  generalize (horizonSlots db first last cycleId).flatMap _ = rows at keys ⊢
  have total : Std.Total (fun a b : Int × StructuralMasterSlot => a.1 < b.1 ∨ a.1 = b.1 ∧ a.2.id ≤ b.2.id) := ⟨fun a b => by omega⟩
  have trans : IsTrans (Int × StructuralMasterSlot) (fun a b => a.1 < b.1 ∨ a.1 = b.1 ∧ a.2.id ≤ b.2.id) := ⟨fun a b c => by omega⟩
  have sorted := List.pairwise_insertionSort (fun a b : Int × StructuralMasterSlot => a.1 < b.1 ∨ a.1 = b.1 ∧ a.2.id ≤ b.2.id) rows
  have apart := (List.perm_insertionSort (fun a b : Int × StructuralMasterSlot => a.1 < b.1 ∨ a.1 = b.1 ∧ a.2.id ≤ b.2.id) rows).symm.pairwise
    keys (fun {a b} other => other.imp Ne.symm Ne.symm)
  refine (sorted.and apart).imp (fun {a b} both => ?_)
  obtain ⟨order,different⟩ := both
  unfold Sooner
  omega

theorem horizonMissing_exact (slots : (db.slots.map StructuralMasterSlot.id).Nodup) (first last : Int) :
    horizonMissing cal db first last none = missingDates cal db first last := by
  refine (horizonMissing_sorted slots first last none).eq_of_mem_iff (missingDates_sorted slots first last) (fun item => ?_)
  rw [mem_horizonMissing,mem_missingDates]
  constructor
  · rintro ⟨⟨booked,planned,same,_⟩,low,high,absent⟩
    refine ⟨⟨low,high⟩,⟨booked,planned,same⟩,?_⟩
    rwa [horizonHave_exact low high,Bool.not_eq_true] at absent
  · rintro ⟨⟨low,high⟩,⟨booked,planned,same⟩,absent⟩
    refine ⟨⟨booked,planned,same,by simp⟩,low,high,?_⟩
    rw [horizonHave_exact low high,Bool.not_eq_true]
    exact absent

end ChronosLedger
