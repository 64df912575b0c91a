import Mathlib.Data.List.Nodup
import ChronosLedger.SlotChecks

namespace ChronosLedger
open Spans

variable {cal : Recurrence} {db : Database} {rule : String} {dtstart : Int} {start finish : Time}

-- Two windows that both run past midnight share that midnight.
theorem overnight_meets {s f t g : Time} (one : f < s) (two : g < t) (day : Int) : Meets (windowSpan day s f) (windowSpan day t g) := by
  have left := s.isLt
  have right := t.isLt
  simp only [Meets,windowSpan,combine,one,two,if_true]
  omega

theorem offsets_parts {passed left : List Int} {offset : Int} (listed : offsets = passed ++ offset :: left) :
    passed = [] ∧ offset = -1 ∨ passed = [-1] ∧ offset = 0 ∨ passed = [-1,0] ∧ offset = 1 := by
  unfold offsets at listed
  match passed,listed with
  | [],listed =>
    cases listed
    exact .inl ⟨rfl,rfl⟩
  | [a],listed =>
    cases listed
    exact .inr (.inl ⟨rfl,rfl⟩)
  | [a,b],listed =>
    cases listed
    exact .inr (.inr ⟨rfl,rfl⟩)
  | a :: b :: c :: rest,listed =>
    have long := congrArg List.length listed
    simp only [List.length_cons,List.length_append,List.length_nil] at long
    omega

theorem firstMeeting_parts {ours theirs : List Int} {theirStart theirEnd : Time} {met : Int}
    (sorted : ours.Pairwise (· < ·)) (first : firstMeeting ours start finish theirs theirStart theirEnd = some met) :
    met ∈ theirs ∧ (∃ day ∈ ours, Meets (windowSpan day start finish) (windowSpan met theirStart theirEnd)) ∧
      ∀ day ∈ ours, ∀ date ∈ theirs, Meets (windowSpan day start finish) (windowSpan date theirStart theirEnd) → met ≤ date := by
  obtain ⟨before,day,after,rfl,hit,missed⟩ := List.findSome?_eq_some_iff.mp first
  obtain ⟨passed,offset,left,listed,taken,skipped⟩ := List.findSome?_eq_some_iff.mp hit
  split at taken
  · rename_i found_
    cases taken
    obtain ⟨there,meeting⟩ := Bool.and_eq_true_iff.mp found_
    have there := List.contains_iff_mem.mp there
    have meeting := of_decide_eq_true meeting
    refine ⟨there,⟨day,by simp,meeting⟩,fun other mine date theirs_ met => ?_⟩
    have near := meets_near met
    -- No pair of an earlier day of ours met, nor one at an earlier offset.
    have late : day ≤ other := by
      by_contra early
      have split_ := List.pairwise_append.mp sorted
      rcases List.mem_append.mp mine with old | new
      · obtain ⟨offset,listed,rfl⟩ := meets_offset met.symm
        have none := List.findSome?_eq_none_iff.mp (missed other old) offset listed
        rw [if_pos (by rw [List.contains_iff_mem.mpr theirs_,Bool.true_and]; exact decide_eq_true met)] at none
        cases none
      · rcases List.mem_cons.mp new with rfl | later
        · exact early (le_refl _)
        · exact early (le_of_lt ((List.pairwise_cons.mp split_.2.1).1 other later))
    have free : ∀ earlier ∈ passed, day+earlier ∈ theirs →
        ¬ Meets (windowSpan day start finish) (windowSpan (day+earlier) theirStart theirEnd) := by
      intro earlier skip known meets
      have none := skipped earlier skip
      rw [if_pos (by rw [List.contains_iff_mem.mpr known,Bool.true_and]; exact decide_eq_true meets)] at none
      cases none
    by_contra lower
    rcases offsets_parts listed with ⟨rfl,rfl⟩ | ⟨rfl,rfl⟩ | ⟨rfl,rfl⟩
    · omega
    · have same : other = day := by omega
      subst same
      have back : date = other+-1 := by omega
      subst back
      exact free (-1) (by simp) theirs_ met
    · rcases Int.lt_or_le date day with back | here
      · have same : other = day := by omega
        subst same
        have back : date = other+-1 := by omega
        subst back
        exact free (-1) (by simp) theirs_ met
      · have same : date = day := by omega
        subst same
        rcases eq_or_lt_of_le late with rfl | next
        · exact free 0 (by simp) (by simpa using theirs_) (by simpa using met)
        · have next : other = date+1 := by omega
          subst next
          exact free 0 (by simp) (by simpa using theirs_)
            (by simpa using overnight_meets (meets_neighbour meeting) (meets_neighbour met.symm) date)
  · cases taken

-- A slot that counts on a resource, with the activity and the cycle it is of.
def Standing (db : Database) (resourceId : Option Nat) (booked : BookedSlot) : Prop :=
  booked.slot ∈ db.slots ∧ db.activity? booked.slot.activityId = some booked.activity ∧
    db.cycle? booked.activity.cycleId = some booked.cycle ∧ booked.slot.retired = false ∧ booked.activity.retired = false ∧
    booked.cycle.operationalStatus = true ∧ booked.slot.resourceId = resourceId

theorem mem_standing {resourceId : Option Nat} {booked : BookedSlot} : booked ∈ bookedSlots db resourceId ↔ Standing db resourceId booked := by
  rw [mem_bookedSlots,mem_openSlots,openSlot_parts,Standing]
  tauto

-- A date of the new rule from tomorrow on, inside its cycle, that sits on a date
-- of the other slot.
def SitsOn (cal : Recurrence) (db : Database) (rule : String) (dtstart : Int) (start finish : Time) (cycle : Option PlanningCycle)
    (other : BookedSlot) (day date : Int) : Prop :=
  Falls cal rule dtstart day ∧ db.orgToday+1 ≤ day ∧ within cycle day = true ∧ Falls cal other.slot.rrule other.slot.dtstart date ∧
    within (some other.cycle) date = true ∧ Meets (windowSpan day start finish) (slotSpan other.slot date)

def againstSlot (cal : Recurrence) (db : Database) (rule : String) (dtstart : Int) (start finish : Time) (excludeSlotId : Option Nat)
    (cycle : Option PlanningCycle) (other : BookedSlot) (date : Int) : Prop :=
  some other.slot.id ≠ excludeSlotId ∧ (∃ day, SitsOn cal db rule dtstart start finish cycle other day date) ∧
    ∀ day later, SitsOn cal db rule dtstart start finish cycle other day later → date ≤ later

theorem firstMeeting_some {ours theirs : List Int} {theirStart theirEnd : Time} {day date : Int} (mine : day ∈ ours) (there : date ∈ theirs)
    (met : Meets (windowSpan day start finish) (windowSpan date theirStart theirEnd)) :
    ∃ found, firstMeeting ours start finish theirs theirStart theirEnd = some found := by
  cases first : firstMeeting ours start finish theirs theirStart theirEnd with
  | none => exact absurd met (firstMeeting_none first mine there)
  | some found => exact ⟨found,rfl⟩

section
variable {excludeSlotId : Option Nat} {cycle : Option PlanningCycle} {other : BookedSlot} {first last : Int}
  (range : ∀ day, first ≤ day ∧ day ≤ last ↔ (db.orgToday+1 ≤ day ∧ within cycle day = true) ∧
    other.cycle.dateBoundsStart-1 ≤ day ∧ day ≤ other.cycle.dateBoundsEnd+1)
include range

-- The dates the two rules are expanded to hold every pair that can meet.
theorem expanded_exact {day date : Int} : SitsOn cal db rule dtstart start finish cycle other day date ↔
    day ∈ occurrences cal rule dtstart first last ∧
      date ∈ occurrences cal other.slot.rrule other.slot.dtstart (max (first-1) other.cycle.dateBoundsStart)
        (min (last+1) other.cycle.dateBoundsEnd) ∧
      Meets (windowSpan day start finish) (slotSpan other.slot date) := by
  rw [mem_occurrences,mem_occurrences,range day]
  constructor
  · rintro ⟨mine,ahead,inside,theirs,there,met⟩
    have near := meets_near met
    have there_ := of_decide_eq_true there
    have reached := (range day).mpr ⟨⟨ahead,inside⟩,by omega,by omega⟩
    exact ⟨⟨mine,⟨ahead,inside⟩,by omega,by omega⟩,⟨theirs,by omega,by omega⟩,met⟩
  · rintro ⟨⟨mine,⟨ahead,inside⟩,_⟩,⟨theirs,low,high⟩,met⟩
    exact ⟨mine,ahead,inside,theirs,decide_eq_true ⟨by omega,by omega⟩,met⟩

theorem meeting_exact {entry : BusyInterval} :
    (if some other.slot.id = excludeSlotId then none
      else if first > last then none
      else if (occurrences cal other.slot.rrule other.slot.dtstart (max (first-1) other.cycle.dateBoundsStart)
        (min (last+1) other.cycle.dateBoundsEnd)).isEmpty then none
      else (firstMeeting (occurrences cal rule dtstart first last) start finish
        (occurrences cal other.slot.rrule other.slot.dtstart (max (first-1) other.cycle.dateBoundsStart)
          (min (last+1) other.cycle.dateBoundsEnd)) other.slot.timeWindowStart other.slot.timeWindowEnd).map (slotInterval other)) = some entry ↔
      ∃ date, againstSlot cal db rule dtstart start finish excludeSlotId cycle other date ∧ entry = slotInterval other date := by
  constructor
  · intro listed
    split at listed
    · cases listed
    · rename_i apart
      split at listed
      · cases listed
      · split at listed
        · cases listed
        · obtain ⟨date,found_,rfl⟩ := Option.map_eq_some_iff.mp listed
          obtain ⟨there,⟨day,mine,met⟩,least⟩ := firstMeeting_parts (occurrences_ordered cal _ _ _ _) found_
          refine ⟨date,⟨apart,⟨day,(expanded_exact range).mpr ⟨mine,there,met⟩⟩,fun day' later sits => ?_⟩,rfl⟩
          obtain ⟨mine',there',met'⟩ := (expanded_exact range).mp sits
          exact least day' mine' later there' met'
  · rintro ⟨date,⟨apart,⟨day,sits⟩,least⟩,rfl⟩
    obtain ⟨mine,there,met⟩ := (expanded_exact range).mp sits
    have reached := (mem_occurrences cal).mp mine
    rw [if_neg apart,if_neg (by omega),if_neg (by rw [List.isEmpty_iff]; exact List.ne_nil_of_mem there)]
    obtain ⟨found_,first_⟩ := firstMeeting_some mine there met
    obtain ⟨there',⟨day',mine',met'⟩,lowest⟩ := firstMeeting_parts (occurrences_ordered cal _ _ _ _) first_
    have same : found_ = date := le_antisymm (lowest day mine date there met) (least day' found_ ((expanded_exact range).mpr ⟨mine',there',met'⟩))
    rw [first_,same]
    rfl

end

theorem reach_alone (db : Database) (other : BookedSlot) (day : Int) :
    max (db.orgToday+1) (other.cycle.dateBoundsStart-1) ≤ day ∧ day ≤ other.cycle.dateBoundsEnd+1 ↔
      (db.orgToday+1 ≤ day ∧ within none day = true) ∧ other.cycle.dateBoundsStart-1 ≤ day ∧ day ≤ other.cycle.dateBoundsEnd+1 := by
  simp only [within,and_true]
  omega

theorem reach_inside (db : Database) (other : BookedSlot) (cycle : PlanningCycle) (day : Int) :
    max (max (db.orgToday+1) (other.cycle.dateBoundsStart-1)) cycle.dateBoundsStart ≤ day ∧
      day ≤ min (other.cycle.dateBoundsEnd+1) cycle.dateBoundsEnd ↔
        (db.orgToday+1 ≤ day ∧ within (some cycle) day = true) ∧ other.cycle.dateBoundsStart-1 ≤ day ∧ day ≤ other.cycle.dateBoundsEnd+1 := by
  simp only [within,decide_eq_true_eq]
  omega

theorem slotsAgainstSlot_entry {resourceId excludeSlotId : Option Nat} {cycle : Option PlanningCycle} {entry : BusyInterval} :
    entry ∈ slotsAgainstSlot cal db resourceId rule dtstart start finish excludeSlotId cycle ↔
      ∃ other ∈ bookedSlots db resourceId, ∃ date, againstSlot cal db rule dtstart start finish excludeSlotId cycle other date ∧
        entry = slotInterval other date := by
  unfold slotsAgainstSlot
  rw [List.mem_filterMap]
  refine exists_congr (fun other => and_congr_right (fun _ => ?_))
  cases cycle with
  | none => exact meeting_exact (reach_alone db other)
  | some cycle => exact meeting_exact (reach_inside db other cycle)

theorem filterMap_keys {α β γ : Type} {f : α → Option β} {key : β → γ} {name : α → γ} (same : ∀ a b, f a = some b → key b = name a)
    (rows : List α) : ((rows.filterMap f).map key).Sublist (rows.map name) := by
  induction rows with
  | nil => exact List.Sublist.refl _
  | cons row rest ih =>
    rw [List.map_cons]
    cases kept : f row with
    | none =>
      rw [List.filterMap_cons_none kept]
      exact ih.cons _
    | some entry =>
      rw [List.filterMap_cons_some kept,List.map_cons,same row entry kept]
      exact ih.cons_cons _

-- A class at five every morning of a week, and a night shift asking for its room.
def earlyClass : BookedSlot := ⟨⟨1,"FREQ=DAILY",100,clock 5 0,clock 7 0,1,none,some 1,false⟩,⟨1,"EARLY","Early","U",1,false⟩,
  ⟨1,"Spring",100,106,true⟩⟩

def earlyWeek : Database := {Database.empty 100 with
  cycles := [earlyClass.cycle],activities := [earlyClass.activity],slots := [earlyClass.slot]}

-- A hold a slot can sit on, and an occurrence from a day on that sits on it.
def Countable (resourceId : Option Nat) (held : Reservation) : Prop :=
  some held.resourceId = resourceId ∧ held.status = .held ∧ held.mode ≠ .shared

def Occurs (cal : Recurrence) (cycle : Option PlanningCycle) (rule : String) (dtstart day : Int) : Prop :=
  Falls cal rule dtstart day ∧ within cycle day = true

def SatOnFrom (cal : Recurrence) (cycle : Option PlanningCycle) (rule : String) (dtstart : Int) (start finish : Time) (since : Int)
    (held : Reservation) : Prop :=
  ∃ day, since ≤ day ∧ Occurs cal cycle rule dtstart day ∧ Meets (windowSpan day start finish) (heldSpan held)

-- No hold of yesterday runs into today's occurrence, and one of today that
-- yesterday's occurrence runs into is sat on by today's or tomorrow's as well.
structure ClearMorning (cal : Recurrence) (db : Database) (resourceId : Option Nat) (cycle : Option PlanningCycle) (rule : String)
    (dtstart : Int) (start finish : Time) : Prop where
  left : ∀ held ∈ db.reservations, Countable resourceId held → held.reservedDate = db.orgToday-1 →
    Occurs cal cycle rule dtstart db.orgToday → ¬ Meets (windowSpan db.orgToday start finish) (heldSpan held)
  behind : ∀ held ∈ db.reservations, Countable resourceId held → held.reservedDate = db.orgToday →
    Occurs cal cycle rule dtstart (db.orgToday-1) → Meets (windowSpan (db.orgToday-1) start finish) (heldSpan held) →
      ∃ day ∈ [db.orgToday,db.orgToday+1], Occurs cal cycle rule dtstart day ∧ Meets (windowSpan day start finish) (heldSpan held)

theorem heldAgainstSlot_entry {resourceId : Option Nat} {cycle : Option PlanningCycle} {entry : BusyInterval} :
    entry ∈ heldAgainstSlot cal db resourceId rule dtstart start finish cycle ↔
      ∃ held ∈ db.reservations, Countable resourceId held ∧ db.orgToday ≤ held.reservedDate ∧
        (∃ day, Occurs cal cycle rule dtstart day ∧ Meets (windowSpan day start finish) (heldSpan held)) ∧ entry = heldInterval held := by
  unfold heldAgainstSlot
  simp only [List.mem_filterMap,List.mem_filter,decide_eq_true_eq,Option.ite_none_right_eq_some,Option.some.injEq,List.any_eq_true,
    Bool.and_eq_true,occursOn_exact]
  constructor
  · rintro ⟨held,⟨stored,here,taken,counted,ahead⟩,⟨offset,_,⟨inside,falls⟩,met⟩,rfl⟩
    exact ⟨held,stored,⟨here,taken,counted⟩,ahead,⟨_,⟨falls,inside⟩,met⟩,rfl⟩
  · rintro ⟨held,stored,⟨here,taken,counted⟩,ahead,⟨day,⟨falls,inside⟩,met⟩,rfl⟩
    obtain ⟨offset,listed,rfl⟩ := meets_offset met
    exact ⟨held,⟨stored,here,taken,counted,ahead⟩,⟨offset,listed,⟨inside,falls⟩,met⟩,rfl⟩

def hallHold (date : Int) (start finish : Time) (proper : finish ≠ start) : Reservation :=
  ⟨1,1,date,start,finish,"rehearsal",none,"spring","",none,1,.exclusive,.held,none,proper,one_unit⟩

end ChronosLedger
