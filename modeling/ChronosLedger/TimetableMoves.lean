import ChronosLedger.HoldMoves
import ChronosLedger.SlotChecks

namespace ChronosLedger
open Spans

variable {cal : Recurrence}

-- The row without what is only said about it: who stands in, how it is held,
-- where the fence is and what state it is in.
def core (row : DailyLedger) : DailyLedger :=
  {row with
    substituteLeadId := none
    deliveryFormat := .physical
    virtualConnectionString := none
    latitudeTarget := none
    longitudeTarget := none
    altitudeTarget := none
    precisionRadiusMeters := none
    operationalState := .scheduled}

-- People, enrolments, absences, requirements and the labels of days may differ.
structure Aside (db next : Database) : Prop where
  today : next.orgToday = db.orgToday
  cycles : next.cycles = db.cycles
  activities : next.activities = db.activities
  resources : next.resources = db.resources
  slots : next.slots = db.slots
  reservations : next.reservations = db.reservations
  marks : next.marks = db.marks
  annotations : next.annotations = db.annotations
  ledger : next.ledger.map core = db.ledger.map core

theorem Aside.refl (db : Database) : Aside db db := ⟨rfl,rfl,rfl,rfl,rfl,rfl,rfl,rfl,rfl⟩

def Anchored (db : Database) (slot : StructuralMasterSlot) : Prop :=
  ∃ activity cycle, db.activity? slot.activityId = some activity ∧ db.cycle? activity.cycleId = some cycle

-- A slot taken to another place, with the days ahead of it that are still plans.
def relocate (db : Database) (moved : StructuralMasterSlot) : Database :=
  (propagateSlotCorrections (setSlot db moved) [moved]).1

-- The room of the slot, when it has one, is on record or is another slot's.
def Housed (db : Database) (slot : StructuralMasterSlot) : Prop :=
  ∀ room, slot.resourceId = some room →
    room ∈ db.resources.map Resource.id ∨ ∃ other ∈ db.slots, other.resourceId = some room

def idleAhead (db : Database) (slotId : Nat) : Prop :=
  ∀ row ∈ db.ledger, plannedFor db slotId row = true → inUse db row.id = false

-- Retirements and closings: flags that only go down, and the days ahead that
-- are still plans and have nothing in service behind them any more.
structure WindsDown (db wound : Database) (retire : StructuralMasterSlot → StructuralMasterSlot)
    (which : DailyLedger → Bool) : Prop where
  today : wound.orgToday = db.orgToday
  resources : wound.resources = db.resources
  reservations : wound.reservations = db.reservations
  ledger : wound.ledger = db.ledger
  marks : wound.marks = db.marks
  annotations : wound.annotations = db.annotations
  activities : wound.activities.map Activity.id = db.activities.map Activity.id
  slots : wound.slots = db.slots.map retire
  shape : ∀ slot, retire slot = slot ∨ retire slot = {slot with retired := true}
  anchored : ∀ slot, Anchored db slot → Anchored wound slot
  down : ∀ slot cycle, InService wound (retire slot) cycle → InService db slot cycle
  ahead : ∀ row, which row = true → db.orgToday ≤ row.targetDate
  only : ∀ row slot, row.masterSlotId = some slot.id → row.activityId = slot.activityId → which row = true →
    ∀ cycle, ¬ InService wound (retire slot) cycle
  drops : ∀ row slot cycle, row.masterSlotId = some slot.id → row.activityId = slot.activityId →
    db.orgToday ≤ row.targetDate → InService db slot cycle → ¬ InService wound (retire slot) cycle → which row = true

-- All that the operations can do to the timetable short of deleting a slot,
-- each with what its checks established.
inductive TimetableMove (cal : Recurrence) (db : Database) : Database → Prop where
  | hold {next : Database} (move : HoldMove cal db next) : TimetableMove cal db next
  | aside {next : Database} (same : Aside db next) : TimetableMove cal db next
  | room {room : Resource} (fresh : room.id ∉ db.resources.map Resource.id) :
      TimetableMove cal db {db with resources := db.resources ++ [room]}
  | cycle {cycle : PlanningCycle} : TimetableMove cal db {db with cycles := db.cycles ++ [cycle]}
  | activity {activity : Activity} (fresh : activity.id ∉ db.activities.map Activity.id) :
      TimetableMove cal db {db with activities := db.activities ++ [activity]}
  | retitle {old activity : Activity} (known : db.activity? activity.id = some old) (cycle : activity.cycleId = old.cycleId)
      (retired : activity.retired = old.retired) : TimetableMove cal db (setActivity db activity)
  | slot {slot : StructuralMasterSlot} (fresh : slot.id ∉ db.slots.map StructuralMasterSlot.id) (anchored : Anchored db slot)
      (clear : ∀ cycle, InService db slot cycle → ClearOf cal db cycle (claimOf slot) none) (housed : Housed db slot) :
      TimetableMove cal db {db with slots := db.slots ++ [slot]}
  | relocate {slot moved : StructuralMasterSlot} (stored : slot ∈ db.slots) (same : moved.id = slot.id)
      (activity : moved.activityId = slot.activityId) (retired : moved.retired = slot.retired) (rule : moved.rrule = slot.rrule)
      (start : moved.dtstart = slot.dtstart)
      (clear : claimOf moved ≠ claimOf slot → ∀ cycle, InService db slot cycle → ClearOf cal db cycle (claimOf moved) (some slot.id))
      (housed : Housed db moved) : TimetableMove cal db (relocate db moved)
  | restart {slot moved : StructuralMasterSlot} (stored : slot ∈ db.slots) (same : moved.id = slot.id)
      (activity : moved.activityId = slot.activityId) (retired : moved.retired = slot.retired) (idle : idleAhead db slot.id)
      (clear : ∀ cycle, InService db slot cycle → ClearOf cal db cycle (claimOf moved) (some slot.id)) (housed : Housed db moved) :
      TimetableMove cal db (setSlot (dropDays db (plannedFor db slot.id)) moved)
  | windDown {wound : Database} {retire : StructuralMasterSlot → StructuralMasterSlot} {which : DailyLedger → Bool}
      (winds : WindsDown db wound retire which) : TimetableMove cal db (dropPlans wound which)
  | open {old cycle : PlanningCycle} (known : db.cycle? cycle.id = some old) (up : cycle = {old with operationalStatus := true})
      (clear : ∀ slot ∈ db.slots, slot.resourceId ≠ none → InService (setCycle db cycle) slot cycle → ¬ InService db slot cycle →
        ClearOf cal (setCycle db cycle) cycle (claimOf slot) (some slot.id)) : TimetableMove cal db (setCycle db cycle)
  | write {slot : StructuralMasterSlot} {day : Int} {state : DynamicState} (on : SlotOn cal db slot day)
      (absent : hasDay db slot.id day = false)
      (free : slot.resourceId ≠ none → ∀ other, OnRoom db slot.resourceId other → other.row.masterSlotId ≠ some slot.id →
        ¬ Meets (daySpan other) (slotSpan slot day)) : TimetableMove cal db (writeDay db (dayFields slot day state))
  | mark {marks : List VerificationLedger} {annotations : List LedgerAnnotation}
      (kept : ∀ mark ∈ db.marks, ∃ later ∈ marks, later.id = mark.id ∧ later.ledgerInstanceId = mark.ledgerInstanceId ∧
        later.memberId = mark.memberId) (noted : ∀ note ∈ db.annotations, note ∈ annotations) :
      TimetableMove cal db {db with marks := marks,annotations := annotations}

abbrev TimetableMoves (cal : Recurrence) : Database → Database → Prop := Relation.ReflTransGen (TimetableMove cal)

def remove (db : Database) (slotId : Nat) : Database :=
  let withdrawn := dropDays db (plannedFor db slotId)
  {withdrawn with
    slots := withdrawn.slots.filter (fun s => s.id ≠ slotId)
    ledger := withdrawn.ledger.map (detachDay slotId)}

-- The deletion of a slot. Its days ahead go, and the ones behind lose it.
inductive SlotRemoval (db : Database) : Database → Prop where
  | remove {slotId : Nat} (idle : idleAhead db slotId) : SlotRemoval db (remove db slotId)

abbrev SlotRemovals : Database → Database → Prop := Relation.ReflTransGen SlotRemoval

structure Keys (db : Database) : Prop extends Keyed db where
  activities : (db.activities.map Activity.id).Nodup
  slots : (db.slots.map StructuralMasterSlot.id).Nodup
  days : (db.ledger.map DailyLedger.id).Nodup

-- Dropping days of which none is in use takes no mark and no note along.
theorem dropDays_idle {db : Database} {gone : DailyLedger → Bool} (idle : ∀ row ∈ db.ledger, gone row = true → inUse db row.id = false) :
    dropDays db gone = {db with ledger := db.ledger.filter (fun row => !gone row)} := by
  have unmarked : ∀ row ∈ db.ledger, gone row = true →
      (∀ mark ∈ db.marks, mark.ledgerInstanceId ≠ row.id) ∧ ∀ note ∈ db.annotations, note.ledgerInstanceId ≠ row.id := by
    intro row member away
    have free := idle row member away
    simp only [inUse,Bool.or_eq_false_iff,List.any_eq_false,decide_eq_true_eq] at free
    exact free
  have marks : db.marks.filter (fun mark => mark.ledgerInstanceId ∉ (db.ledger.filter gone).map DailyLedger.id) = db.marks := by
    apply List.filter_eq_self.mpr
    intro mark member
    simp only [decide_eq_true_eq,List.mem_map,List.mem_filter,not_exists,not_and]
    exact fun row there same => (unmarked row there.1 there.2).1 mark member same.symm
  have notes : db.annotations.filter (fun note => note.ledgerInstanceId ∉ (db.ledger.filter gone).map DailyLedger.id) = db.annotations := by
    apply List.filter_eq_self.mpr
    intro note member
    simp only [decide_eq_true_eq,List.mem_map,List.mem_filter,not_exists,not_and]
    exact fun row there same => (unmarked row there.1 there.2).2 note member same.symm
  unfold dropDays
  simp only [marks,notes]

theorem dropPlans_idle (db : Database) (which : DailyLedger → Bool) :
    dropPlans db which = {db with ledger := db.ledger.filter (fun row => !(which row && !inUse db row.id))} :=
  dropDays_idle (fun row _ away => by simpa using (Bool.and_eq_true_iff.mp away).2)

def relocated (db : Database) (moved : StructuralMasterSlot) (row : DailyLedger) : DailyLedger :=
  if row.masterSlotId = some moved.id ∧ db.orgToday < row.targetDate ∧ inUse db row.id = false then correctedDay moved row else row

theorem relocate_parts (db : Database) (moved : StructuralMasterSlot) :
    relocate db moved = {setSlot db moved with ledger := db.ledger.map (relocated db moved)} := by
  have each : propagateDay (setSlot db moved) [moved] = relocated db moved := by
    funext row
    have use : ∀ id, inUse (setSlot db moved) id = inUse db id := fun _ => rfl
    have today : (setSlot db moved).orgToday = db.orgToday := rfl
    unfold propagateDay slotOf relocated
    cases of : row.masterSlotId with
    | none => simp
    | some id =>
      by_cases own : moved.id = id
      · subst own
        simp [use,today]
      · have other : ¬ id = moved.id := fun same => own same.symm
        simp [own,other]
  simp only [relocate,propagateSlotCorrections,each]
  rfl

@[simp] theorem correctedDay_id (slot : StructuralMasterSlot) (row : DailyLedger) : (correctedDay slot row).id = row.id := by
  unfold correctedDay; dsimp only; split <;> rfl
@[simp] theorem correctedDay_date (slot : StructuralMasterSlot) (row : DailyLedger) :
    (correctedDay slot row).targetDate = row.targetDate := by unfold correctedDay; dsimp only; split <;> rfl
@[simp] theorem correctedDay_slot (slot : StructuralMasterSlot) (row : DailyLedger) :
    (correctedDay slot row).masterSlotId = row.masterSlotId := by unfold correctedDay; dsimp only; split <;> rfl
@[simp] theorem correctedDay_activity (slot : StructuralMasterSlot) (row : DailyLedger) :
    (correctedDay slot row).activityId = row.activityId := by unfold correctedDay; dsimp only; split <;> rfl
@[simp] theorem correctedDay_room (slot : StructuralMasterSlot) (row : DailyLedger) :
    (correctedDay slot row).resourceId = slot.resourceId := by unfold correctedDay; rfl
@[simp] theorem correctedDay_start (slot : StructuralMasterSlot) (row : DailyLedger) :
    (correctedDay slot row).timeWindowStart = some slot.timeWindowStart := by unfold correctedDay; rfl
@[simp] theorem correctedDay_end (slot : StructuralMasterSlot) (row : DailyLedger) :
    (correctedDay slot row).timeWindowEnd = some slot.timeWindowEnd := by unfold correctedDay; rfl

@[simp] theorem relocated_id (db : Database) (moved : StructuralMasterSlot) (row : DailyLedger) : (relocated db moved row).id = row.id := by
  unfold relocated; split <;> simp
@[simp] theorem relocated_date (db : Database) (moved : StructuralMasterSlot) (row : DailyLedger) :
    (relocated db moved row).targetDate = row.targetDate := by unfold relocated; split <;> simp
@[simp] theorem relocated_slot (db : Database) (moved : StructuralMasterSlot) (row : DailyLedger) :
    (relocated db moved row).masterSlotId = row.masterSlotId := by unfold relocated; split <;> simp
@[simp] theorem relocated_activity (db : Database) (moved : StructuralMasterSlot) (row : DailyLedger) :
    (relocated db moved row).activityId = row.activityId := by unfold relocated; split <;> simp

-- What the labels leave alone.
theorem core_eq {one two : DailyLedger} (same : core one = core two) : one.id = two.id ∧ one.targetDate = two.targetDate ∧
    one.timeWindowStart = two.timeWindowStart ∧ one.timeWindowEnd = two.timeWindowEnd ∧ one.masterSlotId = two.masterSlotId ∧
    one.activityId = two.activityId ∧ one.activeLeadId = two.activeLeadId ∧ one.resourceId = two.resourceId := by
  unfold core at same
  simp only [DailyLedger.mk.injEq] at same
  tauto

theorem core_member {one two : List DailyLedger} (same : two.map core = one.map core) {row : DailyLedger} (member : row ∈ one) :
    ∃ later ∈ two, core later = core row := by
  have listed : core row ∈ two.map core := same ▸ List.mem_map_of_mem member
  exact List.mem_map.mp listed

theorem core_ids {one two : List DailyLedger} (same : two.map core = one.map core) :
    two.map DailyLedger.id = one.map DailyLedger.id := by
  have through : ∀ rows : List DailyLedger, rows.map DailyLedger.id = (rows.map core).map DailyLedger.id := by
    intro rows
    rw [List.map_map]
    rfl
  rw [through two,through one,same]

theorem setSlot_ids (db : Database) (slot : StructuralMasterSlot) :
    (setSlot db slot).slots.map StructuralMasterSlot.id = db.slots.map StructuralMasterSlot.id := by
  simp only [setSlot,List.map_map]
  apply List.map_congr_left
  intro other _
  simp only [Function.comp_apply]
  split
  · rename_i same
    exact same.symm
  · rfl

theorem nodup_snoc {ids : List Nat} {id : Nat} (distinct : ids.Nodup) (fresh : id ∉ ids) : (ids ++ [id]).Nodup := by
  refine List.nodup_append.mpr ⟨distinct,by simp,?_⟩
  intro a old b new equal
  cases List.mem_singleton.mp new
  exact fresh (equal ▸ old)

theorem setActivity_ids (db : Database) (activity : Activity) :
    (setActivity db activity).activities.map Activity.id = db.activities.map Activity.id := by
  simp only [setActivity,List.map_map]
  apply List.map_congr_left
  intro other _
  simp only [Function.comp_apply]
  split
  · rename_i same
    exact same.symm
  · rfl

theorem Keys.preserved {db next : Database} (keys : Keys db) (move : TimetableMove cal db next) : Keys next := by
  cases move with
  | hold move =>
    have activities : next.activities = db.activities := by cases move <;> rfl
    have slots : next.slots = db.slots := by cases move <;> rfl
    have ledger : next.ledger = db.ledger := by cases move <;> rfl
    exact ⟨keys.toKeyed.preserved move,activities ▸ keys.activities,slots ▸ keys.slots,ledger ▸ keys.days⟩
  | aside same =>
    refine ⟨⟨?_,?_⟩,?_,?_,?_⟩
    · rw [same.resources]; exact keys.resources
    · rw [same.reservations]; exact keys.reservations
    · rw [same.activities]; exact keys.activities
    · rw [same.slots]; exact keys.slots
    · rw [core_ids same.ledger]; exact keys.days
  | room fresh =>
    refine ⟨⟨?_,keys.reservations⟩,keys.activities,keys.slots,keys.days⟩
    simpa using nodup_snoc keys.resources fresh
  | cycle => exact ⟨⟨keys.resources,keys.reservations⟩,keys.activities,keys.slots,keys.days⟩
  | activity fresh =>
    refine ⟨⟨keys.resources,keys.reservations⟩,?_,keys.slots,keys.days⟩
    simpa using nodup_snoc keys.activities fresh
  | retitle => exact ⟨⟨keys.resources,keys.reservations⟩,(setActivity_ids db _).symm ▸ keys.activities,keys.slots,keys.days⟩
  | slot fresh =>
    refine ⟨⟨keys.resources,keys.reservations⟩,keys.activities,?_,keys.days⟩
    simpa using nodup_snoc keys.slots fresh
  | relocate =>
    rw [relocate_parts]
    refine ⟨⟨keys.resources,keys.reservations⟩,keys.activities,?_,?_⟩
    · exact (setSlot_ids db _).symm ▸ keys.slots
    · rw [List.map_map]
      exact (List.map_congr_left (fun row _ => relocated_id db _ row)).symm ▸ keys.days
  | restart _ _ _ _ idle =>
    rw [dropDays_idle idle]
    exact ⟨⟨keys.resources,keys.reservations⟩,keys.activities,(setSlot_ids _ _).symm ▸ keys.slots,
      keys.days.sublist (List.filter_sublist.map _)⟩
  | windDown winds =>
    rw [dropPlans_idle]
    refine ⟨⟨winds.resources ▸ keys.resources,winds.reservations ▸ keys.reservations⟩,winds.activities ▸ keys.activities,?_,?_⟩
    · rename_i wound retire which
      have ids : ∀ slot : StructuralMasterSlot, (StructuralMasterSlot.id ∘ retire) slot = slot.id := fun slot => by
        rw [Function.comp_apply]
        rcases winds.shape slot with same | same <;> rw [same]
      dsimp only
      rw [winds.slots,List.map_map,List.map_congr_left (fun slot _ => ids slot)]
      exact keys.slots
    · dsimp only
      rw [winds.ledger]
      exact keys.days.sublist (List.filter_sublist.map _)
  | «open» => exact ⟨⟨keys.resources,keys.reservations⟩,keys.activities,keys.slots,keys.days⟩
  | write =>
    refine ⟨⟨keys.resources,keys.reservations⟩,keys.activities,keys.slots,?_⟩
    simpa [writeDay,dayRow] using nodup_snoc keys.days (nextId_notMem _)
  | mark => exact ⟨⟨keys.resources,keys.reservations⟩,keys.activities,keys.slots,keys.days⟩

theorem Keys.removed {db next : Database} (keys : Keys db) (removal : SlotRemoval db next) : Keys next := by
  cases removal with
  | remove idle =>
    unfold ChronosLedger.remove
    rw [dropDays_idle idle]
    refine ⟨⟨keys.resources,keys.reservations⟩,keys.activities,keys.slots.sublist (List.filter_sublist.map _),?_⟩
    rename_i slotId
    have ids : ∀ row : DailyLedger, (DailyLedger.id ∘ detachDay slotId) row = row.id := fun row => by
      simp only [Function.comp_apply,detachDay]
      split <;> rfl
    dsimp only
    rw [List.map_map,List.map_congr_left (fun row _ => ids row)]
    exact keys.days.sublist (List.filter_sublist.map _)

theorem Keys.moved {db next : Database} (keys : Keys db) (moves : TimetableMoves cal db next) : Keys next := by
  induction moves with
  | refl => exact keys
  | tail _ move ih => exact ih.preserved move

end ChronosLedger
