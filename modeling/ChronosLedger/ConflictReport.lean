import Mathlib.Data.List.Flatten
import ChronosLedger.Conflicts
import ChronosLedger.Occupancy
import ChronosLedger.Operations

namespace ChronosLedger
open Spans

-- What an entry says about its row, without the activity and the resource.
abbrev HoldingKey := RowRef × Int × Time × Int × Time

def BusyInterval.key (entry : BusyInterval) : HoldingKey := (entry.row,entry.date,entry.start,entry.endDate,entry.finish)
def Entry.key (entry : Entry) : HoldingKey := (entry.row,entry.date,entry.start,entry.endDate,entry.finish)

abbrev rangeSpan (fromDate toDate : Int) : Int × Int := (midnight fromDate,midnight (toDate+1))

variable (cal : Recurrence)

-- The slot would be listed on the date if no day stood in for it.
def Listable (fromDate toDate : Int) (booked : BookedSlot) (day : Int) : Prop :=
  day ∈ occurrences cal booked.slot.rrule booked.slot.dtstart (fromDate-1) toDate ∧ within (some booked.cycle) day = true ∧
    Meets (slotSpan booked.slot day) (rangeSpan fromDate toDate)

instance (fromDate toDate : Int) (booked : BookedSlot) (day : Int) : Decidable (Listable cal fromDate toDate booked day) :=
  inferInstanceAs (Decidable (_ ∧ _ ∧ _))

-- A day of the slot and date with a window, on whatever resource.
def StandsAnywhere (db : Database) (date : Int) (slotId : Nat) : Prop :=
  ∃ row ∈ db.ledger, row.timeWindowStart.isSome ∧ row.timeWindowEnd.isSome ∧ row.targetDate = date ∧ row.masterSlotId = some slotId

theorem StandsIn.anywhere {db : Database} {resourceId : Option Nat} {date : Int} {slotId : Nat}
    (stands : StandsIn db resourceId date slotId) : StandsAnywhere db date slotId := by
  obtain ⟨day,⟨stored,dated⟩,on,of⟩ := stands
  obtain ⟨_,opens,closes,_,_⟩ := datedDay_parts.mp dated
  exact ⟨day.row,stored,by simp [opens],by simp [closes],on,of⟩

theorem mem_settledAnywhere {db : Database} {fromDate toDate date : Int} {slotId : Nat} (low : fromDate-1 ≤ date)
    (high : date ≤ toDate) : (date,slotId) ∈ settledAnywhere (timedDays db fromDate toDate) ↔ StandsAnywhere db date slotId := by
  simp only [settledAnywhere,timedDays,List.mem_filterMap,List.mem_filter,decide_eq_true_eq,Option.map_eq_some_iff,
    Prod.mk.injEq,StandsAnywhere]
  constructor
  · rintro ⟨row,⟨stored,_,_,opens,closes⟩,slot,of,rfl,rfl⟩
    exact ⟨row,stored,opens,closes,rfl,of⟩
  · rintro ⟨row,stored,opens,closes,rfl,of⟩
    exact ⟨row,⟨stored,low,high,opens,closes⟩,slotId,of,rfl,rfl⟩

-- The keys of the slots' dates a list shows, when `out` says which are settled.
def slotKeys (fromDate toDate : Int) (out : BookedSlot → Int → Bool) (booked : BookedSlot) (day : Int) : Option HoldingKey :=
  if Listable cal fromDate toDate booked day ∧ out booked day = false then some (slotInterval booked day).key else none

theorem occurrences_dates (rule : String) (dtstart first last : Int) :
    (occurrences cal rule dtstart first last).Perm
      ((datesBetween first last).filter (fun day => day ∈ occurrences cal rule dtstart first last)) := by
  refine (List.perm_ext_iff_of_nodup ?_ ?_).mpr ?_
  · exact (occurrences_ordered cal rule dtstart first last).imp (fun less => ne_of_lt less)
  · exact ((datesBetween_ordered first last).imp (fun less => ne_of_lt less)).filter _
  · intro day
    simp only [List.mem_filter,decide_eq_true_eq,mem_datesBetween,mem_occurrences]
    tauto

-- Dates outside and slots inside, or the other way round.
theorem flatMap_swap {α β γ : Type} (f : α → β → Option γ) (outer : List α) (inner : List β) :
    (inner.flatMap (fun b => outer.filterMap (fun a => f a b))).Perm (outer.flatMap (fun a => inner.filterMap (f a))) := by
  induction inner with
  | nil => simp
  | cons b rest ih =>
    have one : outer.filterMap (fun a => f a b) = outer.flatMap (fun a => (f a b).toList) := by
      rw [List.filterMap_eq_flatMap_toList]
    have each : ∀ a, (b :: rest).filterMap (f a) = (f a b).toList ++ rest.filterMap (f a) := by
      intro a
      cases hit : f a b <;> simp [hit]
    simp only [List.flatMap_cons,each,one]
    exact (ih.append_left _).trans (List.flatMap_append_perm ..)

def settledOn (days : List DatedDay) (booked : BookedSlot) (day : Int) : Bool :=
  (days.filterMap (fun d => d.row.masterSlotId.map (fun slot => (d.row.targetDate,slot)))).contains (day,booked.slot.id)

def settledBy (days : List DailyLedger) (booked : BookedSlot) (day : Int) : Bool :=
  decide ((day,booked.slot.id) ∈ settledAnywhere days)

def slotPart (db : Database) (resourceId : Nat) (fromDate toDate : Int) (out : BookedSlot → Int → Bool) : List HoldingKey :=
  (bookedSlots db (some resourceId)).flatMap (fun booked =>
    (datesBetween (fromDate-1) toDate).filterMap (slotKeys cal fromDate toDate out booked))

def dayPart (db : Database) (resourceId : Nat) (fromDate toDate : Int) : List HoldingKey :=
  (db.ledger.filter (fun row => fromDate-1 ≤ row.targetDate ∧ row.targetDate ≤ toDate)).filterMap (fun row =>
    (datedDay db (some resourceId) row).bind (fun day =>
      if Meets (daySpan day) (rangeSpan fromDate toDate) then some (dayInterval day).key else none))

def holdPart (db : Database) (resourceId : Nat) (fromDate toDate : Int) : List HoldingKey :=
  ((heldReservations db resourceId fromDate toDate).filter (fun held => Meets (heldSpan held) (rangeSpan fromDate toDate))).map
    (fun held => (heldInterval held).key)

theorem occupied_keys (db : Database) (resourceId : Nat) (fromDate toDate : Int) :
    ((occupied cal (bookedSlots db (some resourceId)) (heldReservations db resourceId fromDate toDate)
        (bookedDays db (some resourceId) fromDate toDate) fromDate toDate).map BusyInterval.key).Perm
      (slotPart cal db resourceId fromDate toDate (settledOn (bookedDays db (some resourceId) fromDate toDate)) ++
        dayPart db resourceId fromDate toDate ++ holdPart db resourceId fromDate toDate) := by
  refine ((List.perm_insertionSort _ _).map _).trans ?_
  simp only [List.map_append]
  refine (List.Perm.append ?_ ?_).append ?_
  · simp only [slotPart,List.map_flatMap,List.map_filterMap]
    refine List.Perm.flatMap_left _ (fun booked _ => ?_)
    refine ((occurrences_dates cal _ _ _ _).filterMap _).trans (List.Perm.of_eq ?_)
    rw [List.filterMap_filter]
    apply List.filterMap_congr
    intro day _
    simp only [slotKeys,Listable,settledOn,rangeSpan,bounds_slotInterval]
    grind
  · simp only [bookedDays,datedDays,dayPart,List.filter_map,List.map_map]
    refine (((List.perm_insertionSort _ _).filter _).map _).trans (List.Perm.of_eq ?_)
    rw [← List.filterMap_eq_map,List.filterMap_filter,List.filterMap_filterMap]
    simp only [Option.mem_some_iff,forall_eq']
    apply List.filterMap_congr
    intro row _
    cases datedDay db (some resourceId) row with
    | none => rfl
    | some day =>
      simp only [Option.bind_some,Function.comp_apply,decide_eq_true_eq,bounds_dayInterval]
  · refine List.Perm.of_eq ?_
    simp only [holdPart,List.filter_map,List.map_map,rangeSpan,Function.comp_def]
    congr 1
    apply List.filter_congr
    intro held _
    rw [decide_eq_decide,bounds_heldInterval]

theorem entry_reaches (row : RowRef) (fromDate toDate day : Int) (start finish : Time) (activityId resourceId : Option Nat) :
    reachesInto fromDate toDate (entryOf row day start finish activityId resourceId) =
      decide (Meets (windowSpan day start finish) (rangeSpan fromDate toDate)) := by
  change (decide ((windowSpan day start finish).1 < midnight (toDate+1)) &&
    decide (midnight fromDate < (windowSpan day start finish).2)) = _
  rw [Bool.eq_iff_iff,decide_eq_true_iff]
  simp [Meets]

theorem slot_entry (resourceId : Nat) (fromDate toDate day : Int) (booked : BookedSlot) (settled : Bool) :
    ((if day ∉ occurrences cal booked.slot.rrule booked.slot.dtstart (fromDate-1) toDate then none
      else if within (some booked.cycle) day = false then none
      else if settled = true then none
      else some (entryOf (.slot booked.slot.id) day booked.slot.timeWindowStart booked.slot.timeWindowEnd
        (some booked.slot.activityId) booked.slot.resourceId)).bind (fun entry =>
          if (decide (entry.resourceId = some resourceId) && reachesInto fromDate toDate entry) = true then some entry.key else none)) =
      if booked.slot.resourceId = some resourceId then slotKeys cal fromDate toDate (fun _ _ => settled) booked day else none := by
  simp only [slotKeys,Listable]
  by_cases occurs : day ∈ occurrences cal booked.slot.rrule booked.slot.dtstart (fromDate-1) toDate
  · by_cases inside : within (some booked.cycle) day = true
    · cases settled with
      | true => simp [occurs,inside]
      | false =>
        simp only [occurs,inside,not_true_eq_false,if_false,Bool.true_eq_false,Bool.false_eq_true,Option.bind_some,
          entry_reaches,Bool.and_eq_true,decide_eq_true_eq,true_and,and_true,slotSpan]
        by_cases here : booked.slot.resourceId = some resourceId
        · simp [here,entryOf,Entry.key,BusyInterval.key,slotInterval,slotSpan]
        · simp [here,entryOf]
    · simp [inside]
  · simp [occurs]

theorem day_entry (db : Database) (resourceId : Nat) (fromDate toDate : Int) (row : DailyLedger) :
    ((dayEntry row).bind (fun entry =>
        if (decide (entry.resourceId = some resourceId) && reachesInto fromDate toDate entry) = true then some entry.key else none)) =
      (datedDay db (some resourceId) row).bind (fun day =>
        if Meets (daySpan day) (rangeSpan fromDate toDate) then some (dayInterval day).key else none) := by
  unfold dayEntry datedDay
  cases opens : row.timeWindowStart with
  | none => rfl
  | some start =>
    cases closes : row.timeWindowEnd with
    | none => rfl
    | some finish =>
      simp only [Option.bind_some,entry_reaches,Bool.and_eq_true,decide_eq_true_eq]
      by_cases here : row.resourceId = some resourceId
      · simp [here,entryOf,daySpan,Entry.key,BusyInterval.key,dayInterval]
        rfl
      · simp [here,entryOf]

theorem byResource_keys (db : Database) (resourceId : Nat) (fromDate toDate : Int) :
    ((byResource cal db fromDate toDate resourceId).map Entry.key).Perm
      (slotPart cal db resourceId fromDate toDate (settledBy (timedDays db fromDate toDate)) ++
        dayPart db resourceId fromDate toDate ++ holdPart db resourceId fromDate toDate) := by
  simp only [byResource,conflictEntries,List.filter_append,List.map_append]
  refine (List.Perm.append ?_ (List.Perm.of_eq ?_)).append (List.Perm.of_eq ?_)
  · refine List.Perm.trans (List.Perm.of_eq ?_) (flatMap_swap
      (slotKeys cal fromDate toDate (settledBy (timedDays db fromDate toDate))) (bookedSlots db (some resourceId)) (datesBetween (fromDate-1) toDate))
    simp only [slotEntries,List.filter_flatMap,List.map_flatMap]
    congr 1
    funext day
    rw [List.filter_filter,← List.filterMap_eq_map,List.filterMap_filter,List.filterMap_filterMap,bookedSlots,List.filterMap_filter]
    apply List.filterMap_congr
    intro booked _
    have each := slot_entry cal resourceId fromDate toDate day booked (settledBy (timedDays db fromDate toDate) booked day)
    simpa [settledBy,slotKeys] using each
  · rw [List.filter_filter,← List.filterMap_eq_map,List.filterMap_filter,List.filterMap_filterMap,timedDays,dayPart,
      List.filterMap_filter,List.filterMap_filter]
    apply List.filterMap_congr
    intro row _
    have same := day_entry db resourceId fromDate toDate row
    by_cases dated : fromDate-1 ≤ row.targetDate ∧ row.targetDate ≤ toDate
    · by_cases timed : row.timeWindowStart.isSome ∧ row.timeWindowEnd.isSome
      · simpa [dated,timed] using same
      · have blank : dayEntry row = none := by
          unfold dayEntry
          cases opens : row.timeWindowStart <;> cases closes : row.timeWindowEnd <;> simp_all
        simp only [blank,Option.bind_none] at same
        simp [dated,timed,← same]
    · have untimed : ¬ (fromDate-1 ≤ row.targetDate ∧ row.targetDate ≤ toDate ∧ row.timeWindowStart.isSome ∧
          row.timeWindowEnd.isSome) := fun all => dated ⟨all.1,all.2.1⟩
      simp only [untimed,dated,decide_false,Bool.false_eq_true,if_false]
  · simp only [holdPart,heldReservations,List.filter_map,List.map_map,List.filter_filter]
    congr 1
    apply List.filter_congr
    intro held _
    have reaches : reachesInto fromDate toDate (heldEntry held) = decide (Meets (heldSpan held) (rangeSpan fromDate toDate)) :=
      entry_reaches ..
    simp only [Function.comp_apply,reaches]
    rw [Bool.eq_iff_iff]
    simp [heldEntry,entryOf]
    tauto

-- Two lists built piece by piece, each piece of the one inside its piece of the
-- other, are of one length only when the pieces are equal.
theorem pieces_equal {α β : Type} {items : List α} {one two : α → List β} (part : ∀ a ∈ items, (one a).Sublist (two a))
    (same : (items.flatMap one).length = (items.flatMap two).length) : ∀ a ∈ items, one a = two a := by
  induction items with
  | nil => simp
  | cons head rest ih =>
    have first := part head (by simp)
    have later : (rest.flatMap one).length ≤ (rest.flatMap two).length := by
      simp only [List.length_flatMap]
      exact List.sum_le_sum (fun a member => (part a (by simp [member])).length_le)
    simp only [List.flatMap_cons,List.length_append] at same
    have short := first.length_le
    intro a member
    rcases List.mem_cons.mp member with rfl | old
    · exact first.eq_of_length (by omega)
    · exact ih (fun b present => part b (by simp [present])) (by omega) a old

-- A slot on the resource whose generated day is somewhere else.
def Stranded (db : Database) (resourceId : Nat) (fromDate toDate : Int) (booked : BookedSlot) (day : Int) : Prop :=
  booked ∈ bookedSlots db (some resourceId) ∧ Listable cal fromDate toDate booked day ∧
    StandsAnywhere db day booked.slot.id ∧ ¬ StandsIn db (some resourceId) day booked.slot.id

theorem settledOn_exact {db : Database} {resourceId : Option Nat} {fromDate toDate day : Int} {booked : BookedSlot}
    (low : fromDate-1 ≤ day) (high : day ≤ toDate) :
    settledOn (bookedDays db resourceId fromDate toDate) booked day = true ↔ StandsIn db resourceId day booked.slot.id := by
  rw [← not_iff_not,← unsettled_exact low high,settledOn,List.contains_iff_mem,List.mem_filterMap]
  constructor
  · intro absent other member dated stands
    exact absent ⟨other,member,by simp [stands,dated]⟩
  · rintro free ⟨other,member,equal⟩
    obtain ⟨slot,stands,pair⟩ := Option.map_eq_some_iff.mp equal
    obtain ⟨dated,rfl⟩ := Prod.mk.inj pair
    exact free other member dated stands

theorem listable_dated {fromDate toDate day : Int} {booked : BookedSlot} (listable : Listable cal fromDate toDate booked day) :
    fromDate-1 ≤ day ∧ day ≤ toDate := ((mem_occurrences cal).mp listable.1).2

-- The report's keys are among availability's, date by date.
theorem slotKeys_part (db : Database) (resourceId : Nat) (fromDate toDate : Int) (booked : BookedSlot) (day : Int) :
    (slotKeys cal fromDate toDate (settledBy (timedDays db fromDate toDate)) booked day).toList.Sublist
      (slotKeys cal fromDate toDate (settledOn (bookedDays db (some resourceId) fromDate toDate)) booked day).toList := by
  by_cases listable : Listable cal fromDate toDate booked day
  · obtain ⟨low,high⟩ := listable_dated cal listable
    by_cases on : settledOn (bookedDays db (some resourceId) fromDate toDate) booked day = true
    · have any : settledBy (timedDays db fromDate toDate) booked day = true :=
        decide_eq_true ((mem_settledAnywhere low high).mpr ((settledOn_exact low high).mp on).anywhere)
      simp [slotKeys,on,any]
    · by_cases any : settledBy (timedDays db fromDate toDate) booked day = true <;> simp [slotKeys,listable,on,any]
  · simp [slotKeys,listable]

theorem slotPart_pieces (db : Database) (resourceId : Nat) (fromDate toDate : Int) (out : BookedSlot → Int → Bool) :
    slotPart cal db resourceId fromDate toDate out = (bookedSlots db (some resourceId)).flatMap (fun booked =>
      (datesBetween (fromDate-1) toDate).flatMap (fun day => (slotKeys cal fromDate toDate out booked day).toList)) := by
  simp only [slotPart,List.filterMap_eq_flatMap_toList]

theorem slotPart_exact (db : Database) (resourceId : Nat) (fromDate toDate : Int) :
    (slotPart cal db resourceId fromDate toDate (settledBy (timedDays db fromDate toDate))).Perm
      (slotPart cal db resourceId fromDate toDate (settledOn (bookedDays db (some resourceId) fromDate toDate))) ↔
    ∀ booked day, ¬ Stranded cal db resourceId fromDate toDate booked day := by
  rw [slotPart_pieces,slotPart_pieces]
  constructor
  · rintro same booked day ⟨member,listable,anywhere,away⟩
    obtain ⟨low,high⟩ := listable_dated cal listable
    have perSlot := pieces_equal (fun b _ => List.Sublist.flatMap_right _ (fun d _ => slotKeys_part cal db resourceId fromDate toDate b d)) same.length_eq booked member
    have perDate := pieces_equal (fun d _ => slotKeys_part cal db resourceId fromDate toDate booked d)
      (congrArg List.length perSlot) day (mem_datesBetween.mpr ⟨low,high⟩)
    have any : settledBy (timedDays db fromDate toDate) booked day = true := decide_eq_true ((mem_settledAnywhere low high).mpr anywhere)
    have on : settledOn (bookedDays db (some resourceId) fromDate toDate) booked day = false := by
      simpa using mt (settledOn_exact low high).mp away
    simp [slotKeys,listable,any,on] at perDate
  · intro none
    refine List.Perm.of_eq (List.flatMap_congr (fun booked member => List.flatMap_congr (fun day _ => ?_)))
    by_cases listable : Listable cal fromDate toDate booked day
    · obtain ⟨low,high⟩ := listable_dated cal listable
      have same : settledBy (timedDays db fromDate toDate) booked day =
          settledOn (bookedDays db (some resourceId) fromDate toDate) booked day := by
        rw [Bool.eq_iff_iff,settledOn_exact low high,settledBy,decide_eq_true_iff,mem_settledAnywhere low high]
        exact ⟨fun anywhere => by_contra (fun away => none booked day ⟨member,listable,anywhere,away⟩),StandsIn.anywhere⟩
      simp only [slotKeys,same]
    · simp [slotKeys,listable]

-- A class with a day generated for today, moved from one room to another. The
-- day stays on the old room; the new room has the class on its timetable.
def classMoved : List Operation :=
  [.createCycle ⟨"term",90,130,true,autumn_bounds⟩ registrar,.createActivity ⟨"MATH","Mathematics","SCI",1⟩ registrar,
    .createMasterSlot ⟨"FREQ=DAILY",some 100,clock 9 0,clock 10 0,1,none,"A",nine_to_ten⟩ registrar,
    .generateDailyLedgerEntries 100,.updateMasterSlot 1 ⟨none,none,none,none,none,some "B"⟩ registrar]

end ChronosLedger
