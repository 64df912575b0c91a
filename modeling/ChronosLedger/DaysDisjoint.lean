import ChronosLedger.ImportLines

namespace ChronosLedger
open Spans

variable {rt : Runtime} {db next : Database}

theorem holdMoves_ledger {cal : Recurrence} (moves : HoldMoves cal db next) : next.ledger = db.ledger := by
  induction moves with
  | refl => rfl
  | tail _ move ih => exact move.ledger.trans ih

theorem cloned_ledger {cal : Recurrence} (cycle : PlanningCycle) (offerings : List Activity) (db : Database) :
    (offerings.foldl (cloneOffering cal cycle) db).ledger = db.ledger := by
  have slots : ∀ (activityId : Nat) (slots : List StructuralMasterSlot) (db : Database),
      (slots.foldl (cloneSlot cal cycle activityId) db).ledger = db.ledger := by
    intro activityId slots
    induction slots with
    | nil => exact fun _ => rfl
    | cons slot rest ih => exact fun db => ih _
  induction offerings generalizing db with
  | nil => rfl
  | cons offering rest ih => exact (ih _).trans (slots _ _ _)

theorem marked_ledger (ledgerId : Nat) (agentId : String) (records : List AttendanceMarkRequest) (db : Database) :
    (writeMarks db ledgerId records agentId).ledger = db.ledger := by
  have each : ∀ (existing : List VerificationLedger) (records : List AttendanceMarkRequest) (db : Database),
      (records.foldl (writeMark existing ledgerId agentId) db).ledger = db.ledger := by
    intro existing records
    induction records with
    | nil => exact fun _ => rfl
    | cons record rest ih =>
      refine fun db => (ih _).trans ?_
      unfold writeMark
      split
      · rfl
      · split <;> rfl
  exact each _ _ _

-- The operations that write no day and move none.
def Operation.leavesDays : Operation → Bool
  | .createMasterSlot .. | .updateMasterSlot .. | .deleteMasterSlot .. | .uploadMatrix .. => false
  | .generateDailyLedgerEntries _ | .materializeHorizon _ => false
  | _ => true

theorem attempt_thinned {op : Operation} (keys : Keys db) (quiet : op.leavesDays = true) (done : attempt rt db op = .ok next) :
    Thinned db next := by
  have same : ∀ {next : Database}, next.ledger = db.ledger → Thinned db next := fun equal => thinned_core (by rw [equal])
  have dropped : ∀ {wound : Database} (which : DailyLedger → Bool), wound.ledger = db.ledger → Thinned db (dropPlans wound which) := by
    intro wound which equal
    rw [dropPlans_idle]
    exact thinned_sublist (equal ▸ List.filter_sublist)
  cases op with
  | createReservation => exact same (holdMoves_ledger (createReservation_moves (stateOf_parts.mp done).choose_spec))
  | cancelReservation =>
    exact same (holdMoves_ledger (@cancelReservation_moves rt.cal _ _ _ _ _ _ (stateOf_parts.mp done).choose_spec))
  | updateResource => exact same (holdMoves_ledger (updateResource_moves keys.toKeyed (stateOf_parts.mp done).choose_spec))
  | createCycle =>
    obtain ⟨_,created⟩ := stateOf_parts.mp done
    obtain ⟨rfl,_⟩ := createCycle_parts created
    exact same rfl
  | openCycle =>
    obtain ⟨_,opened⟩ := stateOf_parts.mp done
    obtain ⟨_,_,rfl | ⟨_,rfl⟩⟩ := openCycle_parts opened
    · exact same rfl
    · exact same rfl
  | closeCycle =>
    obtain ⟨_,closed⟩ := stateOf_parts.mp done
    obtain ⟨_,_,rfl⟩ := closeCycle_parts closed
    exact dropped _ rfl
  | cloneCycleOfferings =>
    obtain ⟨_,copied⟩ := stateOf_parts.mp done
    obtain ⟨cycle,offerings,_,_,rfl⟩ := cloneCycleOfferings_parts copied
    exact same (cloned_ledger cycle offerings db)
  | createActivity =>
    obtain ⟨_,created⟩ := stateOf_parts.mp done
    obtain ⟨rfl,_⟩ := createActivity_parts created
    exact same rfl
  | updateActivity =>
    obtain ⟨_,titled⟩ := stateOf_parts.mp done
    obtain ⟨_,_,rfl⟩ := updateActivity_parts titled
    exact same rfl
  | retireActivity =>
    obtain ⟨_,retired⟩ := stateOf_parts.mp done
    obtain ⟨_,_,rfl⟩ := retireActivity_parts retired
    exact dropped _ rfl
  | retireMasterSlot =>
    obtain ⟨_,retired⟩ := stateOf_parts.mp done
    obtain ⟨_,_,rfl⟩ := retireMasterSlot_parts retired
    exact dropped _ rfl
  | updateLedgerEntry => exact thinned_core (updateLedgerEntry_core keys (stateOf_parts.mp done).choose_spec)
  | markAttendance =>
    obtain ⟨_,marked⟩ := stateOf_parts.mp done
    obtain ⟨ledgerId,rfl⟩ := markAttendance_parts marked
    exact same (marked_ledger _ _ _ _)
  | batchMarkAttendance =>
    obtain ⟨_,marked⟩ := stateOf_parts.mp done
    obtain ⟨ledgerId,rfl⟩ := batchMarkAttendance_parts marked
    exact same (marked_ledger _ _ _ _)
  | createAnnotation =>
    obtain ⟨_,noted⟩ := stateOf_parts.mp done
    cases createAnnotation_parts noted
    exact same rfl
  | submitAbsence =>
    obtain ⟨_,routed⟩ := stateOf_parts.mp done
    obtain ⟨rfl,_,_⟩ := routeAbsenceDeclaration_parts routed
    exact same rfl
  | decideAbsence =>
    obtain ⟨_,decided⟩ := stateOf_parts.mp done
    obtain ⟨log,_,rfl⟩ := decideAbsence_parts decided
    unfold commitAbsenceOverride
    split
    · exact same rfl
    · refine thinned_core ?_
      rw [List.map_map]
      exact List.map_congr_left (fun row _ => leaveDay_core _ _ row)
  | advanceClock =>
    cases done
    exact same rfl
  | _ => cases quiet

-- The days of one slot on one room, at the windows they have.
def ownDays (db : Database) (slotId room : Nat) : List DatedDay :=
  (db.ledger.filter (fun row => row.masterSlotId = some slotId)).filterMap (datedDay db (some room))

-- What the one-day job is about to write for a slot is not across another day
-- of that slot. A slot that has the day, or whose room another slot's day takes,
-- is passed over and may have anything.
def DayClear (cal : Recurrence) (db : Database) (targetDate : Int) : Prop :=
  ∀ booked ∈ (candidates db targetDate).filter (fun booked => occursOn cal booked.slot.rrule booked.slot.dtstart targetDate),
    hasDay db booked.slot.id targetDate = false → takenBy db (dayFields booked.slot targetDate .scheduled) = [] →
      ∀ room ∈ booked.slot.resourceId, ∀ day ∈ ownDays db booked.slot.id room, ¬ Meets (daySpan day) (slotSpan booked.slot targetDate)

def roomAsked (strip : String → String) (db : Database) (slot : StructuralMasterSlot) (code : Option String) : Option Nat :=
  match code with
  | none => slot.resourceId
  | some code => some (getOrCreateRoom strip code db).1.id

-- A change that gives the slot another rule or start takes its days ahead away.
def rulesStay (cal : Recurrence) (db : Database) (slot : StructuralMasterSlot) (payload : MasterSlotUpdate) : Bool :=
  ((db.activity? slot.activityId).bind (fun activity => db.cycle? activity.cycleId)).all (fun cycle =>
    match changedRule cal slot cycle payload with
    | .ok (rule,dtstart) => rule = slot.rrule && dtstart = slot.dtstart
    | .error _ => false)

-- No step puts a day of a slot across a day the slot keeps: not the one-day job,
-- not a change of the slot, not the last line of a file that asks for it.
def OwnDaysClear (rt : Runtime) (db : Database) : Operation → Prop
  | .generateDailyLedgerEntries targetDate => DayClear rt.cal db targetDate
  | .updateMasterSlot slotId payload _ => ∀ slot ∈ db.slot? slotId, rulesStay rt.cal db slot payload = true →
      MovesClear db slot.id (roomAsked rt.reading.strip db slot payload.targetRoomIdentifier)
        (payload.timeWindowStart.getD slot.timeWindowStart) (payload.timeWindowEnd.getD slot.timeWindowEnd)
  | .uploadMatrix file cycleId _ _ => ∀ slot ∈ db.slots, ∀ row ∈ lastLine rt.reading db cycleId file.rows slot.id,
      ∀ window ∈ (rowWindow rt.reading row).toOption,
        MovesClear db slot.id (some (getOrCreateRoom rt.reading.strip row.room db).1.id) window.start window.finish
  | _ => True

instance (rt : Runtime) (db : Database) (targetDate : Int) : Decidable (DayClear rt.cal db targetDate) := by
  unfold DayClear; infer_instance

instance (rt : Runtime) : DecidableRel (OwnDaysClear rt) := fun db op => by
  cases op <;> unfold OwnDaysClear <;> infer_instance

theorem roomFree_earlier {fields other : DayFields} (free : RoomFree (writeDay db fields) other) : RoomFree db other :=
  fun roomed day here apart => free roomed day ⟨List.mem_append_left _ here.1,here.2⟩ apart

theorem generateSlots_own (targetDate : Int) (slots : List BookedSlot) (db : Database) (own : OwnApart db)
    (clear : ∀ booked ∈ slots, hasDay db booked.slot.id targetDate = false → RoomFree db (dayFields booked.slot targetDate .scheduled) →
      ∀ row ∈ db.ledger, row.masterSlotId = some booked.slot.id → ∀ room span, booked.slot.resourceId = some room →
        Takes row room span → ¬ Meets span (slotSpan booked.slot targetDate)) : OwnApart (generateSlots targetDate db slots).1 := by
  induction slots generalizing db with
  | nil => exact own
  | cons booked rest ih =>
    have tail := fun other (member : other ∈ rest) => clear other (List.mem_cons_of_mem _ member)
    unfold generateSlots
    split
    · exact ih db own tail
    · rename_i absent
      change OwnApart (generateSlots targetDate (insertDay db (dayFields booked.slot targetDate
        (leaveState (approvedLeave db booked.slot.primaryLeadId targetDate)))).1 rest).1
      unfold insertDay
      split
      · exact ih db own tail
      · rename_i free
        split
        · exact ih db own tail
        · have free := takenBy_free (not_not.mp free)
          refine ih _ (own.written ?_) ?_
          · exact clear booked (List.mem_cons_self ..) (by simpa using absent) free
          · intro other member none open_ row stored of room span here takes
            rw [hasDay_write,Bool.or_eq_false_iff] at none
            rcases List.mem_append.mp stored with old | new
            · exact tail other member none.1 (roomFree_earlier open_) row old of room span here takes
            · rw [List.mem_singleton.mp new] at of
              have same : booked.slot.id = other.slot.id := Option.some.inj of
              have both := of_decide_eq_false none.2
              exact absurd ⟨same,rfl⟩ both

theorem generate_own {cal : Recurrence} {targetDate : Int} (own : OwnApart db) (clear : DayClear cal db targetDate) :
    OwnApart (generateDailyLedgerEntries cal db targetDate).1 := by
  refine generateSlots_own targetDate _ db own ?_
  intro booked member absent free row stored of room span here takes
  obtain ⟨day,there,same,rfl⟩ := takes_onRoom stored takes
  refine clear booked member absent (takenBy_exact.mpr free) room here day ?_
  exact List.mem_filterMap.mpr ⟨row,List.mem_filter.mpr ⟨stored,decide_eq_true of⟩,same ▸ there.2⟩

theorem relocate_own (own : OwnApart db) (dated : OneADay db) {moved : StructuralMasterSlot}
    (clear : MovesClear db moved.id moved.resourceId moved.timeWindowStart moved.timeWindowEnd) : OwnApart (relocate db moved) := by
  have base : OwnApart (setSlot db moved) := own
  refine base.propagated dated (fun slot member => ?_)
  cases List.mem_singleton.mp member
  exact clear

theorem updateMasterSlot_own {slotId : Nat} {payload : MasterSlotUpdate} {currentUser : User} {view : SlotUpdateView}
    (own : OwnApart db) (dated : OneADay db) (clear : OwnDaysClear rt db (.updateMasterSlot slotId payload currentUser))
    (done : updateMasterSlot rt.cal rt.sha256 rt.reading.strip db slotId payload currentUser = .ok (next,view)) : OwnApart next := by
  obtain ⟨slot,activity,cycle,rule,dtstart,resourceId,made,withdrawn,_,known,planned,found_,changed,asked,_,dropped,rfl⟩ :=
    updateMasterSlot_parts done
  obtain ⟨_,⟨resources,rfl⟩,placed⟩ := @askedRoom_parts rt.cal _ _ _ _ _ _ _ asked
  rcases withdrawOldRule_parts dropped with ⟨rfl,rfl,rfl⟩ | ⟨_,idle,rfl⟩
  · have stay : rulesStay rt.cal db slot payload = true := by
      unfold rulesStay
      simp [planned,found_,changed]
    have room : roomAsked rt.reading.strip db slot payload.targetRoomIdentifier = resourceId := by
      rcases placed with ⟨none,rfl,_⟩ | ⟨code,some_,rfl,_⟩
      · rw [none]; rfl
      · rw [some_]; rfl
    have asked := clear slot known stay
    rw [room] at asked
    exact @relocate_own {db with resources := resources} own dated _ asked
  · -- The days ahead are gone, so nothing moves.
    have thin : Thinned db (dropDays {db with resources := resources} (plannedFor {db with resources := resources} slot.id)) := by
      rw [dropDays_idle idle]
      exact thinned_sublist List.filter_sublist
    refine relocate_own (own.thinned thin) ?_ ?_
    · rw [dropDays_idle idle]
      exact fun one two id left right => dated one two id (List.mem_filter.mp left).1 (List.mem_filter.mp right).1
    · rw [dropDays_idle idle]
      intro r _ day _ date there
      obtain ⟨row,listed,rfl⟩ := List.mem_map.mp there
      obtain ⟨stored,mine⟩ := List.mem_filter.mp listed
      have mine := of_decide_eq_true mine
      obtain ⟨_,stays⟩ := List.mem_filter.mp stored
      have late : db.orgToday ≤ row.targetDate := le_of_lt mine.2.1
      simp only [plannedFor,Bool.not_eq_true',Bool.and_eq_false_iff,decide_eq_false_iff_not] at stays
      rcases stays with other | early
      · exact absurd mine.1 other
      · exact absurd late early

-- After the lines of a file, where each slot ends up is clear of what it keeps:
-- a slot of the file, a slot no line asked for, or a room made on the way.
theorem imported_clear {cycle : PlanningCycle} {file : Matrix} {s : ImportState} (order : InOrder rt.cal db) (known : RoomsKnown db)
    (own : OwnApart db) (followed : Followed rt.reading db cycle.id file.rows s.db)
    (clear : ∀ slot ∈ db.slots, ∀ row ∈ lastLine rt.reading db cycle.id file.rows slot.id, ∀ window ∈ (rowWindow rt.reading row).toOption,
      MovesClear db slot.id (some (getOrCreateRoom rt.reading.strip row.room db).1.id) window.start window.finish)
    {slot : StructuralMasterSlot} (stored : slot ∈ s.db.slots) :
    MovesClear s.db slot.id slot.resourceId slot.timeWindowStart slot.timeWindowEnd := by
  have use : ∀ id, inUse s.db id = inUse db id := fun id => by unfold inUse; rw [followed.marks,followed.annotations]
  refine movesClear_exact.mpr ?_
  rw [followed.ledger,followed.today]
  intro r here kept present plan listed span of stays takes of' goes
  rw [use] at stays goes
  rcases followed.slots slot stored with ⟨old,was,key⟩ | new
  · have named : slot.id = old.id := (congrArg Prod.fst key).symm
    have placed := followed.placed slot stored old was named
    rw [named] at of of'
    cases line : lastLine rt.reading db cycle.id file.rows old.id with
    | none =>
      -- The slot is where it was, and so are the days ahead of it.
      rw [line] at placed
      obtain ⟨_,at_⟩ := order.placed plan listed goes.1 goes.2 old was of'
      have span' : Takes plan r (windowSpan plan.targetDate slot.timeWindowStart slot.timeWindowEnd) :=
        ⟨at_.1.trans (placed.room.symm.trans here),_,_,at_.2.1,at_.2.2,by rw [placed.start,placed.finish]⟩
      exact own kept plan r span _ present listed (fun same => stays (same_of_key order.days present listed same ▸ goes))
        (of.trans of'.symm) takes span'
    | some row =>
      rw [line] at placed
      obtain ⟨window,room,read,start,finish,roomed,asked⟩ := placed
      rcases asked with rfl | fresh
      · have asked := clear old was row line window (by rw [read]; rfl)
        rw [start,finish]
        exact movesClear_exact.mp asked r (roomed.symm.trans here) kept present plan listed span of stays takes of' goes
      · cases Option.some.inj (roomed.symm.trans here)
        exact absurd (known.days kept present _ takes.1) fresh
  · obtain ⟨old,was,named,_⟩ := order.linked kept present slot.id of
    exact absurd named (Nat.ne_of_lt (new old was))

theorem uploadMatrix_own {file : Matrix} {cycleId : Nat} {removeMissing : Bool} {currentUser : User} {report : ImportReport}
    (tended : Tended rt.cal db) (own : OwnApart db) (clear : OwnDaysClear rt db (.uploadMatrix file cycleId removeMissing currentUser))
    (done : uploadMatrix rt.cal rt.reading rt.sha256 rt.settings db file cycleId removeMissing currentUser = .ok (next,report)) :
    OwnApart next := by
  obtain ⟨cycle,imported,known,rfl,processed,rfl⟩ := uploadMatrix_parts done
  obtain ⟨s,read,outcome⟩ := import_parts processed
  have ready : Importing cycle db [] := ⟨(caughtUp_start db).symm ▸ tended.order.toKeys,known,fun _ none => absurd none List.not_mem_nil⟩
  have followed := importRows_followed tended.order.anchored tended.order.slots file.rows ⟨db,[],[],[],[],[]⟩ ready
    (followed_start tended.order.slots cycle.id) read
  have moves := importRows_moves file.rows ⟨db,[],[],[],[],[]⟩ ready read
  rw [caughtUp_start] at moves
  have same : OwnApart s.db := own.thinned (thinned_core (by rw [followed.ledger]))
  have dated : OneADay s.db := by
    unfold OneADay
    rw [followed.ledger]
    exact tended.dated
  have caught : OwnApart (caughtUp s.db s.corrected) := by
    refine same.propagated dated (fun slot member => ?_)
    obtain ⟨id,_,found_⟩ := List.mem_filterMap.mp member
    exact imported_clear tended.order tended.known own followed clear (find_key found_).1
  rcases outcome with ⟨_,rfl⟩ | ⟨_,found_,rfl⟩
  · exact caught.materialized rt.settings _
  · obtain ⟨after,removed,aside⟩ := removeOrphans_removes (caughtUp s.db s.corrected) found_
    exact (((tended.moved moves).cleared caught removed).2.thinned (thinned_core aside.ledger)).materialized rt.settings _

-- One operation, with the days it writes and moves clear of the slot's own.
theorem perform_own {op : Operation} (tended : Tended rt.cal db) (own : OwnApart db) (clear : OwnDaysClear rt db op) :
    OwnApart (perform rt db op) := by
  unfold perform
  split
  · rename_i next done
    cases quiet : op.leavesDays with
    | true => exact own.thinned (attempt_thinned tended.order.toKeys quiet done)
    | false =>
      cases op with
      | createMasterSlot =>
        obtain ⟨_,_,_,room,made,_,_,roomed,_,rfl⟩ := createMasterSlot_parts (stateOf_parts.mp done).choose_spec
        refine OwnApart.materialized (own.thinned (thinned_core ?_)) rt.settings _
        obtain ⟨resources,same⟩ := room_parts rt.reading.strip _ db
        rw [roomed] at same
        rw [show made = _ from same]
      | updateMasterSlot => exact updateMasterSlot_own own tended.dated clear (stateOf_parts.mp done).choose_spec
      | deleteMasterSlot =>
        exact (tended.cleared own (deleteMasterSlot_removes (stateOf_parts.mp done).choose_spec)).2
      | uploadMatrix => exact uploadMatrix_own tended own clear (stateOf_parts.mp done).choose_spec
      | generateDailyLedgerEntries =>
        cases done
        exact generate_own own clear
      | materializeHorizon =>
        cases done
        exact own.materialized rt.settings _
      | _ => cases quiet
  · exact own

theorem Tended.path {cal : Recurrence} (tended : Tended cal db) (path : Path cal db next) : Tended cal next := by
  have removed : ∀ {a b}, Tended cal a → SlotRemovals a b → Tended cal b := by
    intro a b first removals
    induction removals with
    | refl => exact first
    | tail _ removal ih => exact ih.removed removal
  obtain ⟨_,_,moves,removals,last,_⟩ := path
  exact (removed (tended.moved moves) removals).moved last

-- No two rows of the ledger share a room and a moment.
def DaysDisjoint (db : Database) : Prop :=
  ∀ one ∈ db.ledger, ∀ two ∈ db.ledger, one ≠ two → ∀ room span other, Takes one room span → Takes two room other → ¬ Meets span other

theorem days_disjoint_every_run {start db : Database} (order : InOrder rt.cal start) (rooms : ∀ slot ∈ start.slots, ∀ room,
    slot.resourceId = some room → room ∈ start.resources.map Resource.id) (empty : start.ledger = [])
    (path : Runs.Reached (Runs.Guarded (Performs rt) (OwnDaysClear rt)) start db) : DaysDisjoint db := by
  have run : Tended rt.cal db ∧ OwnApart db := by
    refine path.invariant (fun s => Tended rt.cal s ∧ OwnApart s) ⟨⟨order,⟨rooms,?_⟩,?_,?_⟩,?_⟩ ?_
    · simp [empty]
    · simp [OneADay,empty]
    · simp [DaysCross,empty]
    · simp [OwnApart,empty]
    · rintro before op after ⟨tended,own⟩ ⟨clear,taken⟩
      have now : after = perform rt before op := taken
      subst now
      exact ⟨tended.path (perform_path tended.order.toKeys).1,perform_own tended own clear⟩
  obtain ⟨tended,own⟩ := run
  intro one left two right distinct room span other takes takes'
  by_cases same : one.masterSlotId = two.masterSlotId
  · exact own one two room span other left right (fun named => distinct (same_of_key tended.order.days left right named)) same takes takes'
  · exact tended.cross one two room span other left right takes takes' same

-- A class from ten at night to six with two days ahead. A day later the first of
-- them is today's and stays; the class is moved, and the second goes along.
def nightClass (start finish : Time) : List Operation :=
  [.createCycle ⟨"term",90,130,true,autumn_bounds⟩ registrar,.createActivity ⟨"MATH","Mathematics","SCI",1⟩ registrar,
    .createMasterSlot ⟨"FREQ=DAILY",some 100,clock 22 0,clock 6 0,1,none,"A",ten_at_night_to_six⟩ registrar,.generateDailyLedgerEntries 102,
    .advanceClock 1,.updateMasterSlot 1 ⟨none,none,some start,some finish,none,none⟩ registrar]

def movedClass (start finish : Time) : Database := performAll plainRuntime (staffed 100) (nightClass start finish)

def lateRow : DailyLedger := dayRow 1 ⟨101,clock 22 0,clock 6 0,1,1,none,some 1,.scheduled⟩
def earlyRow : DailyLedger := dayRow 2 ⟨102,clock 5 0,clock 7 0,1,1,none,some 1,.scheduled⟩

theorem own_days_meet : EmptySchedule (staffed 100) ∧
    Runs.Reached (Performs plainRuntime) (staffed 100) (movedClass (clock 5 0) (clock 7 0)) ∧
    ¬ DaysDisjoint (movedClass (clock 5 0) (clock 7 0)) := by
  refine ⟨staffed_empty 100,performAll_reached _ _ _,fun disjoint => ?_⟩
  exact disjoint lateRow (by decide) earlyRow (by decide) (by decide) 1 _ _ ⟨rfl,_,_,rfl,rfl,rfl⟩ ⟨rfl,_,_,rfl,rfl,rfl⟩ (by decide)

theorem staffed_order (cal : Recurrence) (today : Int) : InOrder cal (staffed today) :=
  ⟨⟨⟨by simp [staffed,Database.empty],by simp [staffed,Database.empty]⟩,by simp [staffed,Database.empty],
    by simp [staffed,Database.empty],by simp [staffed,Database.empty]⟩,by simp [staffed,Database.empty],by simp [staffed,Database.empty],
    by simp [staffed,Database.empty],by simp [staffed,Database.empty],by simp [staffed,Database.empty]⟩

-- Moved to seven instead, the class is clear of the day it keeps.
theorem days_disjoint_morning_class : DaysDisjoint (movedClass (clock 7 0) (clock 9 0)) ∧
    (movedClass (clock 7 0) (clock 9 0)).ledger.map (fun row => (row.targetDate,row.timeWindowStart)) =
      [(101,some (clock 22 0)),(102,some (clock 7 0))] :=
  ⟨days_disjoint_every_run (staffed_order _ 100) (fun _ none => absurd none List.not_mem_nil) rfl
    (performAll_admitted plainRuntime (OwnDaysClear plainRuntime) (staffed 100) (nightClass (clock 7 0) (clock 9 0)) (by decide)),by decide⟩

end ChronosLedger
