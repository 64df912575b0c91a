import ChronosLedger.DraftedSlots

namespace ChronosLedger
open Spans

variable {cal : Recurrence} {sha256 strip : String → String} {settings : LedgerSettings} {db : Database} {cycle : PlanningCycle} {currentUser : User}

def inService (cycle : PlanningCycle) : PlanningCycle := {cycle with operationalStatus := true}

-- The cycle in service, and the slots it was drafted with not yet typed in.
def untyped (db : Database) (cycle : PlanningCycle) : Database :=
  {setCycle db (inService cycle) with slots := db.slots.filter (fun slot => slot ∉ slotsOfCycle db cycle.id)}

-- A cycle put together while closed, no day of it generated yet.
structure Drafted (cal : Recurrence) (db : Database) (cycle : PlanningCycle) : Prop where
  known : db.cycle? cycle.id = some cycle
  closed : cycle.operationalStatus = false
  slots : (db.slots.map StructuralMasterSlot.id).Nodup
  rooms : (db.resources.map Resource.code).Nodup
  filed : ∀ row ∈ db.ledger, ∀ id ∈ row.masterSlotId, ∃ slot ∈ db.slots, slot.id = id
  dayless : ∀ row ∈ db.ledger, ∀ slot ∈ slotsOfCycle db cycle.id, row.masterSlotId ≠ some slot.id
  anchored : ∀ slot ∈ slotsOfCycle db cycle.id, firstOccurrence cal slot.rrule slot.dtstart = some slot.dtstart

-- The slot as it is typed in with POST /schedule/slots.
structure Types (strip : String → String) (db : Database) (slot : StructuralMasterSlot) (payload : MasterSlotCreate) : Prop where
  rule : payload.rrule = slot.rrule
  dtstart : payload.dtstart = some slot.dtstart
  start : payload.timeWindowStart = slot.timeWindowStart
  finish : payload.timeWindowEnd = slot.timeWindowEnd
  activity : payload.activityId = slot.activityId
  room : ∃ room ∈ db.resources, slot.resourceId = some room.id ∧ strip payload.targetRoomIdentifier = room.code
  lead : refuseUnlessLead db payload.primaryLeadId = .ok ()

-- One after the other, until one is refused.
def createAll (cal : Recurrence) (sha256 strip : String → String) (settings : LedgerSettings) (currentUser : User) :
    Database → List MasterSlotCreate → Answer Database
  | db,[] => .ok db
  | db,payload :: rest => do
    let (db,_) ← createMasterSlot cal sha256 strip settings db payload currentUser
    createAll cal sha256 strip settings currentUser db rest

-- A date of one sits on a date of the other, one of the two still to come.
def Collide (cal : Recurrence) (cycle : PlanningCycle) (today : Int) (one two : StructuralMasterSlot) : Prop :=
  one.resourceId = two.resourceId ∧ ∃ d e, OnDate cal cycle one.rrule one.dtstart d ∧ OnDate cal cycle two.rrule two.dtstart e ∧
    today ≤ d ∧ today ≤ e ∧ (today < d ∨ today < e) ∧ Meets (slotSpan one d) (slotSpan two e)

-- Nothing that is there without the drafted slots is in the slot's way.
structure Free (cal : Recurrence) (base : Database) (cycle : PlanningCycle) (slot : StructuralMasterSlot) : Prop where
  held : heldFor cal base cycle (claimOf slot) = []
  scheduled : scheduledFor cal base cycle (claimOf slot) none = []
  days : daysFor cal base cycle (claimOf slot) none = []

theorem Collide.symm {today : Int} {one two : StructuralMasterSlot} (collide : Collide cal cycle today one two) :
    Collide cal cycle today two one := by
  obtain ⟨room,d,e,on,on',low,low',ahead,met⟩ := collide
  exact ⟨room.symm,e,d,on',on,low',low,ahead.symm,met.symm⟩

theorem slotsOfCycle_parts {slot : StructuralMasterSlot} {cycleId : Nat} : slot ∈ slotsOfCycle db cycleId ↔
    slot ∈ db.slots ∧ slot.retired = false ∧ ∃ activity, db.activity? slot.activityId = some activity ∧ activity.cycleId = cycleId ∧
      activity.retired = false := by
  simp only [slotsOfCycle,List.mem_insertionSort,List.mem_filter,Bool.and_eq_true,Bool.not_eq_true',Option.any_eq_true,decide_eq_true_eq]

theorem slotsOfCycle_distinct (slots : (db.slots.map StructuralMasterSlot.id).Nodup) (cycleId : Nat) :
    ((slotsOfCycle db cycleId).map StructuralMasterSlot.id).Nodup := by
  unfold slotsOfCycle
  rw [((List.perm_insertionSort _ _).map StructuralMasterSlot.id).nodup_iff]
  exact slots.sublist (List.filter_sublist.map _)

section
variable (drafted : Drafted cal db cycle)
include drafted

theorem Drafted.cycle_found : (setCycle db (inService cycle)).cycle? cycle.id = some (inService cycle) := by
  rw [setCycle_cycle,drafted.known]
  exact congrArg some (if_pos rfl)

-- The drafted slots are the ones the cycle puts into service.
theorem Drafted.in_service (q : Database) (activities : q.activities = db.activities) (cycles : q.cycles = (setCycle db (inService cycle)).cycles)
    {slot : StructuralMasterSlot} (listed : slot ∈ slotsOfCycle db cycle.id) : InService q slot (inService cycle) := by
  obtain ⟨_,live,activity,planned,of,lively⟩ := slotsOfCycle_parts.mp listed
  refine ⟨activity,?_,?_,live,lively,rfl⟩
  · unfold Database.activity?
    rw [activities]
    exact planned
  · unfold Database.cycle?
    rw [cycles,of]
    exact drafted.cycle_found

omit drafted in
theorem service_listed {q : Database} (activities : q.activities = db.activities) {slot : StructuralMasterSlot} {other : PlanningCycle}
    (stored : slot ∈ db.slots) (service : InService q slot other) (of : other.id = cycle.id) : slot ∈ slotsOfCycle db cycle.id := by
  obtain ⟨activity,planned,found_,live,lively,_⟩ := service
  refine slotsOfCycle_parts.mpr ⟨stored,live,activity,?_,?_,lively⟩
  · unfold Database.activity? at planned ⊢
    rwa [activities] at planned
  · rw [← of]
    exact (find_key found_).2.symm

-- What open_cycle asks of one drafted slot: nothing else in its way, and no
-- other drafted slot on a date still to come.
theorem blockedBy_exact {slot : StructuralMasterSlot} (listed : slot ∈ slotsOfCycle db cycle.id) (roomed : slot.resourceId ≠ none) :
    blockedBy cal (setCycle db (inService cycle)) (inService cycle) slot = [] ↔ Free cal (untyped db cycle) (inService cycle) slot ∧
      ∀ other ∈ slotsOfCycle db cycle.id, other.id ≠ slot.id → other.resourceId = slot.resourceId → ∀ d e, db.orgToday < d →
        OnDate cal (inService cycle) slot.rrule slot.dtstart d → OnDate cal (inService cycle) other.rrule other.dtstart e →
          ¬ Meets (slotSpan slot d) (slotSpan other e) := by
  have roomed_ : slot.resourceId.isNone = false := by
    cases here : slot.resourceId with
    | none => exact absurd here roomed
    | some room => rfl
  unfold blockedBy
  rw [roomed_,if_neg Bool.false_ne_true,List.map_eq_nil_iff,List.append_eq_nil_iff,List.append_eq_nil_iff,scheduledFor_exact,daysFor_exact]
  constructor
  · intro ⟨⟨held,scheduled⟩,days⟩
    refine ⟨⟨held,scheduledFor_exact.mpr ?_,daysFor_exact.mpr ?_⟩,?_⟩
    · intro other date ⟨stored,service⟩ room _ day ahead dated
      obtain ⟨stored',aside⟩ := List.mem_filter.mp stored
      have apart : some other.id ≠ some slot.id := by
        intro same
        cases same_of_key drafted.slots stored' (slotsOfCycle_parts.mp listed).1 (Option.some.inj same)
        exact of_decide_eq_true aside listed
      exact scheduled other date ⟨stored',service⟩ room apart day ahead dated
    · exact fun other here ahead _ day dated => days other here ahead (.inr (drafted.dayless other.row here.1 slot listed)) day dated
    · intro other there apart room d e ahead on on'
      exact scheduled other e ⟨(slotsOfCycle_parts.mp there).1,_,drafted.in_service (setCycle db (inService cycle)) rfl rfl there,on'⟩ room
        (fun same => apart (Option.some.inj same)) d ahead on
  · intro ⟨free,others⟩
    refine ⟨⟨free.held,?_⟩,fun other here ahead _ day dated => daysFor_exact.mp free.days other here ahead ?_ day dated⟩
    · intro other date ⟨stored,cycle_,service,on⟩ room apart day ahead dated
      by_cases there : other ∈ slotsOfCycle db cycle.id
      · cases service.unique (drafted.in_service (setCycle db (inService cycle)) rfl rfl there)
        exact others other there (fun same => apart (congrArg some same)) room day date ahead dated on
      · exact scheduledFor_exact.mp free.scheduled other date ⟨List.mem_filter.mpr ⟨stored,by simpa using there⟩,cycle_,service,on⟩ room
          nofun day ahead dated
    · cases other.row.masterSlotId <;> simp

theorem openCycle_exact (admin : currentUser.roleType = .orgAdmin) : (∃ next message, openCycle cal db cycle.id currentUser = .ok (next,message)) ↔
    ∀ slot ∈ slotsOfCycle db cycle.id, blockedBy cal (setCycle db (inService cycle)) (inService cycle) slot = [] := by
  have roles : requireRoles [.orgAdmin] currentUser = .ok () := by simp [requireRoles,admin]
  have found_ : found (db.cycle? cycle.id) (notFound "Cycle not found") = .ok cycle := by simp [drafted.known]
  unfold openCycle
  rw [roles,found_]
  simp only [Except.bind,bind,drafted.closed,Bool.false_eq_true,if_false]
  change (∃ next message, Except.bind (ensure ((slotsOfCycle db cycle.id).flatMap
    (blockedBy cal (setCycle db (inService cycle)) (inService cycle)) = []) _) _ = .ok (next,message)) ↔ _
  rw [← List.flatMap_eq_nil_iff]
  constructor
  · rintro ⟨next,message,done⟩
    obtain ⟨_,unblocked,_⟩ := bind_parts.mp done
    exact ensure_parts.mp unblocked
  · intro unblocked
    exact ⟨_,_,bind_parts.mpr ⟨(),ensure_parts.mpr unblocked,rfl⟩⟩

omit drafted in
theorem refuseIfTaken_exact {q : Database} {claim : Claim} : refuseIfTaken cal q (inService cycle) claim none = .ok () ↔
    heldFor cal q (inService cycle) claim = [] ∧ scheduledFor cal q (inService cycle) claim none = [] ∧
      daysFor cal q (inService cycle) claim none = [] := by
  have service : (inService cycle).operationalStatus = true := rfl
  unfold refuseIfTaken
  simp only [bind_parts,refuseIfHeld_parts,refuseIfScheduled_parts,refuseIfADayIsThere,ensure_parts,service,forall_const,exists_const]

-- Typed in by an admin, a drafted slot is refused for what it lands on alone.
theorem create_exact {q : Database} {slot : StructuralMasterSlot} {payload : MasterSlotCreate}
    (frame : ∃ slots ledger, q = {untyped db cycle with slots := slots,ledger := ledger}) (admin : currentUser.roleType = .orgAdmin)
    (listed : slot ∈ slotsOfCycle db cycle.id) (types : Types strip db slot payload) :
    ((∃ next view, createMasterSlot cal sha256 strip settings q payload currentUser = .ok (next,view)) ↔
      heldFor cal q (inService cycle) (claimOf slot) = [] ∧ scheduledFor cal q (inService cycle) (claimOf slot) none = [] ∧
        daysFor cal q (inService cycle) (claimOf slot) none = []) ∧
    ∀ next view, createMasterSlot cal sha256 strip settings q payload currentUser = .ok (next,view) →
      ∃ made : StructuralMasterSlot, made.id = nextId (q.slots.map StructuralMasterSlot.id) ∧ claimOf made = claimOf slot ∧
        made.activityId = slot.activityId ∧ made.retired = false ∧
        next = fillHorizon cal settings {q with slots := q.slots ++ [made]} cycle.id := by
  obtain ⟨slots,ledger,rfl⟩ := frame
  obtain ⟨_,_,activity,planned,of,lively⟩ := slotsOfCycle_parts.mp listed
  obtain ⟨room,stored,here,code⟩ := types.room
  generalize same : ({untyped db cycle with slots := slots,ledger := ledger} : Database) = q
  have known : q.activity? payload.activityId = some activity := by rw [← same,types.activity]; exact planned
  have cycle_ : q.cycle? activity.cycleId = some (inService cycle) := by rw [← same,of]; exact drafted.cycle_found
  have lead : refuseUnlessLead q payload.primaryLeadId = .ok () := by rw [← same]; exact types.lead
  have room_ : getOrCreateRoom strip payload.targetRoomIdentifier q = (room,q) := by
    have found_ : q.resources.find? (fun r => r.code = strip payload.targetRoomIdentifier) = some room := by
      rw [← same,code]
      exact find_of_mem drafted.rooms stored
    unfold getOrCreateRoom
    rw [found_]
  have start : anchor cal payload.rrule (payload.dtstart.getD (inService cycle).dateBoundsStart) = .ok slot.dtstart := by
    rw [types.dtstart,types.rule,Option.getD_some,anchor,drafted.anchored slot listed]
    rfl
  have claim : (⟨some room.id,payload.rrule,slot.dtstart,payload.timeWindowStart,payload.timeWindowEnd⟩ : Claim) = claimOf slot := by
    rw [types.rule,types.start,types.finish,← here]
    rfl
  have roles : requireRoles [.orgAdmin,.unitAdmin] currentUser = .ok () := by simp [requireRoles,admin]
  have unit : ∀ code, ensureUnitScope currentUser code = .ok () := by simp [ensureUnitScope,inUnitScope,admin]
  have scope : ensureResourceScope currentUser room = .ok () := by
    unfold ensureResourceScope
    split
    · exact unit _
    · rfl
  have asked : createMasterSlot cal sha256 strip settings q payload currentUser =
      (refuseIfTaken cal q (inService cycle) (claimOf slot) none).bind (fun _ =>
        .ok (fillHorizon cal settings {q with slots := q.slots ++ [madeSlot q payload slot.dtstart room.id]} activity.cycleId,
          ⟨(madeSlot q payload slot.dtstart room.id).id,unmetForSlot cal sha256 (fillHorizon cal settings
            {q with slots := q.slots ++ [madeSlot q payload slot.dtstart room.id]} activity.cycleId)
            (madeSlot q payload slot.dtstart room.id)⟩)) := by
    unfold createMasterSlot
    simp only [roles,found,known,unit,refuseIfRetired,lively,ensure,if_true,lead,cycle_,start,room_,scope,claim,bind,Except.bind]
    rfl
  have made : claimOf (madeSlot q payload slot.dtstart room.id) = claimOf slot := claim
  rw [asked,← refuseIfTaken_exact,of]
  constructor
  · constructor
    · rintro ⟨_,_,done⟩
      exact (bind_parts.mp done).choose_spec.1
    · intro free
      rw [free]
      exact ⟨_,_,rfl⟩
  · intro next view done
    obtain ⟨_,_,answered⟩ := bind_parts.mp done
    cases answered
    exact ⟨_,rfl,made,types.activity,rfl,rfl⟩

-- The slot that was typed in for a drafted one.
structure TypedFor (slot made : StructuralMasterSlot) : Prop where
  claim : claimOf made = claimOf slot
  activity : made.activityId = slot.activityId
  live : made.retired = false

-- A day of the slot, on its room and at its window.
structure DayOf (slot : StructuralMasterSlot) (row : DailyLedger) : Prop where
  of : row.masterSlotId = some slot.id
  activity : row.activityId = slot.activityId
  takes : ∀ room span, Takes row room span ↔ slot.resourceId = some room ∧ span = slotSpan slot row.targetDate

-- How far the typing has come: the slots made for the drafted ones, their days
-- ahead, among them tomorrow's.
structure Typed (cal : Recurrence) (db : Database) (cycle : PlanningCycle) (done made : List StructuralMasterSlot) (q : Database) : Prop where
  frame : ∃ ledger, q = {untyped db cycle with slots := (untyped db cycle).slots ++ made,ledger := ledger}
  like : List.Forall₂ TypedFor done made
  listed : ∀ slot ∈ done, slot ∈ slotsOfCycle db cycle.id
  keys : (q.slots.map StructuralMasterSlot.id).Nodup
  kept : ∀ row ∈ db.ledger, row ∈ q.ledger
  rows : ∀ row ∈ q.ledger, row ∈ db.ledger ∨ ∃ slot ∈ made, DayOf slot row ∧ db.orgToday < row.targetDate ∧
    OnDate cal (inService cycle) slot.rrule slot.dtstart row.targetDate
  tomorrow : ∀ slot ∈ made, OnDate cal (inService cycle) slot.rrule slot.dtstart (db.orgToday+1) →
    ∃ row ∈ q.ledger, DayOf slot row ∧ row.targetDate = db.orgToday+1

omit drafted

theorem TypedFor.fields {slot made : StructuralMasterSlot} (like : TypedFor slot made) : made.resourceId = slot.resourceId ∧
    made.rrule = slot.rrule ∧ made.dtstart = slot.dtstart ∧ ∀ day, slotSpan made day = slotSpan slot day := by
  obtain ⟨room,rule,dtstart,start,finish⟩ := Claim.mk.inj like.claim
  refine ⟨room,rule,dtstart,fun day => ?_⟩
  unfold slotSpan
  rw [start,finish]

theorem typed_left {α β : Type} {like : α → β → Prop} {drafts : List α} {typed : List β} (all : List.Forall₂ like drafts typed) :
    (∀ one ∈ drafts, ∃ two ∈ typed, like one two) ∧ ∀ two ∈ typed, ∃ one ∈ drafts, like one two := by
  induction all with
  | nil => exact ⟨fun _ none => absurd none List.not_mem_nil,fun _ none => absurd none List.not_mem_nil⟩
  | cons first _ ih =>
    refine ⟨List.forall_mem_cons.mpr ⟨⟨_,List.mem_cons_self,first⟩,fun one listed => ?_⟩,
      List.forall_mem_cons.mpr ⟨⟨_,List.mem_cons_self,first⟩,fun two listed => ?_⟩⟩
    · obtain ⟨two,there,same⟩ := ih.1 one listed
      exact ⟨two,List.mem_cons_of_mem _ there,same⟩
    · obtain ⟨one,there,same⟩ := ih.2 two listed
      exact ⟨one,List.mem_cons_of_mem _ there,same⟩

theorem dayOf_row (db : Database) (id : Nat) (day : Int) (slot : StructuralMasterSlot) : DayOf slot (dayRow id (dueFields db day slot)) where
  of := rfl
  activity := rfl
  takes := by
    intro room span
    refine ⟨fun ⟨here,start,finish,opens,closes,same⟩ => ?_,fun ⟨here,same⟩ => ⟨here,_,_,rfl,rfl,same⟩⟩
    cases opens
    cases closes
    exact ⟨here,same⟩

variable {done made : List StructuralMasterSlot} {q : Database}

theorem TypedFor.service (drafted : Drafted cal db cycle) (activities : q.activities = db.activities)
    (cycles : q.cycles = (setCycle db (inService cycle)).cycles) {slot m : StructuralMasterSlot} (listed : slot ∈ slotsOfCycle db cycle.id)
    (like : TypedFor slot m) : InService q m (inService cycle) := by
  obtain ⟨activity,planned,found_,_,lively,service⟩ := drafted.in_service q activities cycles listed
  rw [← like.activity] at planned
  exact ⟨activity,planned,found_,like.live,lively,service⟩

theorem Typed.service (drafted : Drafted cal db cycle) (typed : Typed cal db cycle done made q) {m : StructuralMasterSlot} (there : m ∈ made) :
    InService q m (inService cycle) := by
  obtain ⟨slot,listed,like⟩ := (typed_left typed.like).2 m there
  obtain ⟨ledger,rfl⟩ := typed.frame
  refine like.service drafted ?_ ?_ (typed.listed slot listed)
  · rfl
  · rfl

-- The days of what was typed in are told apart from all other days by the slot.
theorem Typed.own (drafted : Drafted cal db cycle) (typed : Typed cal db cycle done made q) {row : DailyLedger} (stored : row ∈ q.ledger)
    {id : Nat} (of : row.masterSlotId = some id) :
    (∃ slot ∈ (untyped db cycle).slots, slot.id = id) ∨ ∃ m ∈ made, m.id = id ∧ DayOf m row := by
  rcases typed.rows row stored with old | ⟨m,there,day,_⟩
  · obtain ⟨slot,known,same⟩ := drafted.filed row old id of
    refine .inl ⟨slot,List.mem_filter.mpr ⟨known,?_⟩,same⟩
    simpa using fun listed => drafted.dayless row old slot listed (of.trans (congrArg some same.symm))
  · exact .inr ⟨m,there,Option.some.inj (day.of.symm.trans of),day⟩

-- What the checks of the next slot come to: nothing else in its way, and no
-- slot typed in before it on the same room and date. A slot dated today is not
-- found by the rules of what comes after it, and its neighbour's day of tomorrow
-- is there instead.
theorem Typed.clear (drafted : Drafted cal db cycle) (typed : Typed cal db cycle done made q) {slot : StructuralMasterSlot} {room : Nat}
    (here : slot.resourceId = some room) :
    (heldFor cal q (inService cycle) (claimOf slot) = [] ∧ scheduledFor cal q (inService cycle) (claimOf slot) none = [] ∧
      daysFor cal q (inService cycle) (claimOf slot) none = []) ↔
    Free cal (untyped db cycle) (inService cycle) slot ∧ ∀ other ∈ done, ¬ Collide cal (inService cycle) db.orgToday slot other := by
  have service := fun {m} there => @Typed.service cal db cycle done made q drafted typed m there
  have roomed : (claimOf slot).resourceId = some room := here
  obtain ⟨ledger,rfl⟩ := typed.frame
  rw [scheduledFor_exact,daysFor_exact]
  constructor
  · intro ⟨held,scheduled,days⟩
    refine ⟨⟨held,scheduledFor_exact.mpr ?_,daysFor_exact.mpr ?_⟩,?_⟩
    · intro other date ⟨stored,on⟩ room _ day ahead dated
      exact scheduled other date ⟨List.mem_append_left _ stored,on⟩ room nofun day ahead dated
    · exact fun other ⟨stored,dated⟩ ahead apart day on => days other ⟨typed.kept _ stored,dated⟩ ahead apart day on
    · intro other listed ⟨same,d,e,on,on',low,_,ahead,met⟩
      obtain ⟨m,there,like⟩ := (typed_left typed.like).1 other listed
      obtain ⟨room_,rule_,dtstart_,span_⟩ := like.fields
      rw [← span_] at met
      rw [← rule_,← dtstart_] at on'
      by_cases soon : db.orgToday < d
      · exact scheduled m e ⟨List.mem_append_right _ there,_,service there,on'⟩ (room_.trans same.symm) nofun d soon on met
      · have near := meets_near met
        have next : e = db.orgToday+1 := by omega
        subst next
        obtain ⟨row,stored,day,date⟩ := typed.tomorrow m there on'
        obtain ⟨dated,on_,its,span⟩ := takes_onRoom stored ((day.takes room _).mpr ⟨(room_.trans same.symm).trans here,rfl⟩)
        refine days dated (by rwa [roomed]) ?_ ?_ d on ?_
        · rw [its,date]
          exact Int.le_of_lt (Int.lt_succ _)
        · cases dated.row.masterSlotId <;> simp
        · rw [span,date]
          exact met
  · intro ⟨free,others⟩
    refine ⟨free.held,?_,?_⟩
    · intro other date ⟨stored,cycle_,on,dated'⟩ same _ day ahead dated met
      rcases List.mem_append.mp stored with old | new
      · exact scheduledFor_exact.mp free.scheduled other date ⟨old,cycle_,on,dated'⟩ same nofun day ahead dated met
      · obtain ⟨t,listed,like⟩ := (typed_left typed.like).2 other new
        obtain ⟨room_,rule_,dtstart_,span_⟩ := like.fields
        cases on.unique (service new)
        rw [rule_,dtstart_] at dated'
        rw [span_] at met
        have near := meets_near met
        have today : db.orgToday < day := ahead
        exact others t listed ⟨same.symm.trans room_,day,date,dated,dated',by omega,by omega,.inl today,met⟩
    · intro other on ahead _ day dated met
      have inRoom := on
      rw [roomed] at inRoom
      obtain ⟨stored,takes⟩ := onRoom_takes inRoom
      rcases typed.rows other.row stored with old | ⟨m,there,its,later,dated'⟩
      · exact daysFor_exact.mp free.days other ⟨old,on.2⟩ ahead (by cases other.row.masterSlotId <;> simp) day dated met
      · obtain ⟨t,listed,like⟩ := (typed_left typed.like).2 m there
        obtain ⟨room_,rule_,dtstart_,span_⟩ := like.fields
        obtain ⟨housed,span⟩ := (its.takes room _).mp takes
        rw [rule_,dtstart_] at dated'
        rw [span,span_] at met
        have near := meets_near met
        exact others t listed ⟨here.trans (housed.symm.trans room_),day,_,dated,dated',by omega,by omega,.inr later,met⟩

theorem typed_snoc {slot m : StructuralMasterSlot} (like : List.Forall₂ TypedFor done made) (last : TypedFor slot m) :
    List.Forall₂ TypedFor (done ++ [slot]) (made ++ [m]) := by
  induction like with
  | nil => exact .cons last .nil
  | cons first _ ih => exact .cons first ih

-- With the slots of the cycle gone, only those typed in run in it.
theorem planned_typed {drafts : List StructuralMasterSlot} (drafted : Drafted cal db cycle) (activities : q.activities = db.activities)
    (cycles : q.cycles = (setCycle db (inService cycle)).cycles) (slots : q.slots = (untyped db cycle).slots ++ made)
    (like : List.Forall₂ TypedFor drafts made) (listed : ∀ slot ∈ drafts, slot ∈ slotsOfCycle db cycle.id) {booked : BookedSlot} {day : Int}
    (planned : Planned cal q booked day) (of : booked.cycle.id = cycle.id) :
    booked.slot ∈ made ∧ OnDate cal (inService cycle) booked.slot.rrule booked.slot.dtstart day := by
  obtain ⟨stored,cycle_,service,dated⟩ := planned.slotOn
  obtain ⟨_,activity_,found_,live,lively,open_,_⟩ := planned_parts.mp planned
  have same := service.unique ⟨booked.activity,activity_,found_,live,lively,open_⟩
  rw [slots] at stored
  rcases List.mem_append.mp stored with old | new
  · obtain ⟨known,aside⟩ := List.mem_filter.mp old
    exact absurd (service_listed activities known service (same ▸ of)) (of_decide_eq_true aside)
  · obtain ⟨slot,drawn,typed⟩ := (typed_left like).2 _ new
    cases service.unique (typed.service drafted activities cycles (listed slot drawn))
    exact ⟨new,dated⟩

section
variable {slot m : StructuralMasterSlot}

-- No day has the id that the next slot is given.
theorem Typed.fresh (drafted : Drafted cal db cycle) (typed : Typed cal db cycle done made q)
    (id : m.id = nextId (q.slots.map StructuralMasterSlot.id)) : ∀ row ∈ q.ledger, row.masterSlotId ≠ some m.id := by
  intro row stored its
  have unused : m.id ∉ q.slots.map StructuralMasterSlot.id := id ▸ nextId_notMem _
  obtain ⟨ledger,frame⟩ := typed.frame
  have slots : q.slots = (untyped db cycle).slots ++ made := by rw [frame]
  rw [slots,List.map_append] at unused
  rcases typed.own drafted stored its with ⟨other,there,same⟩ | ⟨other,there,same,_⟩
  · exact unused (List.mem_append_left _ (same ▸ List.mem_map_of_mem there))
  · exact unused (List.mem_append_right _ (same ▸ List.mem_map_of_mem there))

theorem Typed.belongs (drafted : Drafted cal db cycle) (typed : Typed cal db cycle done made q)
    (id : m.id = nextId (q.slots.map StructuralMasterSlot.id)) :
    Belongs {q with slots := q.slots ++ [m]} cycle.id := by
  intro booked opened of row stored its
  have fresh := typed.fresh drafted id
  obtain ⟨ledger,rfl⟩ := typed.frame
  obtain ⟨stored',opened'⟩ := mem_openSlots.mp opened
  obtain ⟨_,activity_,found_,live,lively,open_⟩ := openSlot_parts.mp opened'
  have service : InService (untyped db cycle) booked.slot booked.cycle := ⟨booked.activity,activity_,found_,live,lively,open_⟩
  rcases typed.own drafted stored its with ⟨other,there,same⟩ | ⟨other,there,same,day⟩
  · -- A slot left in the state is not one of the cycle.
    exfalso
    have known : booked.slot = other := by
      rcases List.mem_append.mp stored' with old | new
      · exact same_of_key typed.keys old (List.mem_append_left _ there) same.symm
      · cases List.mem_singleton.mp new
        exact absurd its (fresh row stored)
    obtain ⟨known_,aside⟩ := List.mem_filter.mp there
    rw [known] at service
    exact of_decide_eq_true aside (@service_listed db cycle (untyped db cycle) rfl other booked.cycle known_ service of)
  · unfold inCycle
    dsimp only
    have known : booked.slot.activityId = other.activityId := by
      rcases List.mem_append.mp stored' with old | new
      · rw [same_of_key typed.keys old (List.mem_append_right _ there) same.symm]
      · cases List.mem_singleton.mp new
        exact absurd its (fresh row stored)
    have activity : Database.activity? (untyped db cycle) row.activityId = some booked.activity := by
      rw [day.activity,← known]
      exact activity_
    change Option.any (fun activity => decide (activity.cycleId = cycle.id)) (Database.activity? (untyped db cycle) row.activityId) = true
    rw [activity,Option.any_some,decide_eq_true_eq,← of]
    exact (find_key found_).2.symm

-- Its room free of everything else, the slot gets its day of tomorrow.
theorem Typed.seated (drafted : Drafted cal db cycle) (typed : Typed cal db cycle done made q) (horizon : 1 ≤ settings.horizonDays)
    (listed : slot ∈ slotsOfCycle db cycle.id) (like : TypedFor slot m) (id : m.id = nextId (q.slots.map StructuralMasterSlot.id))
    (scheduled : scheduledFor cal q (inService cycle) (claimOf slot) none = [])
    (days : daysFor cal q (inService cycle) (claimOf slot) none = [])
    (on : OnDate cal (inService cycle) m.rrule m.dtstart (db.orgToday+1)) :
    dueFields {q with slots := q.slots ++ [m]} (db.orgToday+1) m ∈ fillRows cal {q with slots := q.slots ++ [m]} settings cycle.id := by
  have fresh := typed.fresh drafted id
  obtain ⟨room_,rule_,dtstart_,span_⟩ := like.fields
  have on' : OnDate cal (inService cycle) (claimOf slot).rrule (claimOf slot).dtstart (db.orgToday+1) := by
    rw [rule_,dtstart_] at on
    exact on
  obtain ⟨ledger,frame⟩ := typed.frame
  have slots : q.slots = (untyped db cycle).slots ++ made := by rw [frame]
  have today : q.orgToday = db.orgToday := by rw [frame]; rfl
  have activities : q.activities = db.activities := by rw [frame]; rfl
  have cycles : q.cycles = (setCycle db (inService cycle)).cycles := by rw [frame]; rfl
  generalize whole : ({q with slots := q.slots ++ [m]} : Database) = grown
  have slots' : grown.slots = (untyped db cycle).slots ++ (made ++ [m]) := by rw [← whole,slots,List.append_assoc]
  have ledger' : grown.ledger = q.ledger := by rw [← whole]
  have activities' : grown.activities = db.activities := by rw [← whole]; exact activities
  have cycles' : grown.cycles = (setCycle db (inService cycle)).cycles := by rw [← whole]; exact cycles
  have window : horizonWindow grown settings = (db.orgToday+1,db.orgToday+settings.horizonDays) := by rw [← whole,← today]; rfl
  have rooms : ∀ room other, OnRoom grown room other → OnRoom q room other := by
    intro room other on
    rw [← whole] at on
    exact on
  have there : m ∈ grown.slots := by rw [slots']; simp
  have service := like.service drafted activities' cycles' listed
  obtain ⟨booked,rfl,planned⟩ := SlotOn.planned ⟨there,_,service,on⟩
  have its : booked.cycle = inService cycle := by
    obtain ⟨_,activity_,found_,live,lively,open_,_⟩ := planned_parts.mp planned
    exact InService.unique ⟨booked.activity,activity_,found_,live,lively,open_⟩ service
  have asked : dueFields grown (db.orgToday+1) booked.slot ∈ (horizonMissing cal grown (db.orgToday+1) (db.orgToday+settings.horizonDays)
      (some cycle.id)).map (horizonFields grown (db.orgToday+1) (db.orgToday+settings.horizonDays)) := by
    refine List.mem_map.mpr ⟨(db.orgToday+1,booked.slot),mem_horizonMissing.mpr ⟨⟨booked,planned,rfl,?_⟩,le_refl _,?_,?_⟩,
      horizonFields_due ⟨le_refl _,?_⟩⟩
    · intro other same
      cases same
      rw [its]
      rfl
    · dsimp only; omega
    · intro have_
      obtain ⟨row,kept,same⟩ := List.mem_map.mp have_
      rw [List.mem_filter,ledger'] at kept
      exact fresh row kept.1 (congrArg Prod.fst same)
    · dsimp only; omega
  by_contra left
  unfold fillRows at left
  rw [window] at left
  rcases FirstCome.pick_left asked left with (foreign | across) | ⟨other,picked,roomed,same,met⟩
  · refine foreign_exact.mp foreign (fun _ other on_ _ met => ?_)
    have near := meets_near met
    have opens : (dueFields grown (db.orgToday+1) booked.slot).targetDate = db.orgToday+1 := rfl
    have here_ : OnRoom grown booked.slot.resourceId other := on_
    rw [room_] at here_
    refine daysFor_exact.mp days other (rooms _ other here_) ?_ (by cases other.row.masterSlotId <;> simp) _ on' ?_
    · rw [today]
      omega
    · rw [claimSpan_claimOf,← span_]
      exact met.symm
  · refine across (fun room _ day own => absurd (mem_ownDays.mp own).2 ?_)
    have stored := (mem_ownDays.mp own).1.1
    rw [ledger'] at stored
    exact fresh _ stored
  · -- An earlier day of the fill has the room: the slot's own, or one of a slot
    -- that the rules were tried against.
    have part := (FirstCome.pick_sublist _ _).subset picked
    obtain ⟨item,missing,rfl⟩ := List.mem_map.mp part
    obtain ⟨⟨booked',planned',of',asked'⟩,low,high,_⟩ := mem_horizonMissing.mp missing
    obtain ⟨mine,dated⟩ := planned_typed drafted activities' cycles' slots' (typed_snoc typed.like like)
      (List.forall_mem_append.mpr ⟨typed.listed,List.forall_mem_singleton.mpr listed⟩) planned' (asked' _ rfl)
    rw [of'] at mine dated
    have met_ : Meets (slotSpan item.2 item.1) (slotSpan booked.slot (db.orgToday+1)) := met
    rcases List.mem_append.mp mine with old | own
    · refine scheduledFor_exact.mp scheduled item.2 item.1 ⟨?_,_,typed.service drafted old,dated⟩ ?_ nofun (db.orgToday+1) ?_ on' ?_
      · rw [slots]
        exact List.mem_append_right _ old
      · exact (show item.2.resourceId = booked.slot.resourceId from same).trans room_
      · rw [today]
        exact Int.lt_succ _
      · rw [claimSpan_claimOf,← span_]
        exact met_.symm
    · have alike := List.mem_singleton.mp own
      rw [alike] at met_
      by_cases day : item.1 = db.orgToday+1
      · have twice : horizonFields grown (db.orgToday+1) (db.orgToday+settings.horizonDays) item = dueFields grown (db.orgToday+1) booked.slot := by
          rw [horizonFields_due ⟨low,high⟩,day,alike]
        rw [twice] at picked
        exact left picked
      · exact span_apart day _ _ met_

theorem Typed.filled (drafted : Drafted cal db cycle) (typed : Typed cal db cycle done made q) (horizon : 1 ≤ settings.horizonDays)
    (listed : slot ∈ slotsOfCycle db cycle.id) (like : TypedFor slot m) (id : m.id = nextId (q.slots.map StructuralMasterSlot.id))
    (scheduled : scheduledFor cal q (inService cycle) (claimOf slot) none = [])
    (days : daysFor cal q (inService cycle) (claimOf slot) none = []) :
    Typed cal db cycle (done ++ [slot]) (made ++ [m]) (fillHorizon cal settings {q with slots := q.slots ++ [m]} cycle.id) := by
  have keys : ((q.slots ++ [m]).map StructuralMasterSlot.id).Nodup := by
    rw [List.map_append,List.map_singleton]
    exact nodup_snoc typed.keys (id ▸ nextId_notMem _)
  have seated := @Typed.seated cal settings db cycle done made q slot m drafted typed horizon listed like id scheduled days
  rw [@fillHorizon_exact cal {q with slots := q.slots ++ [m]} keys settings _ (typed.belongs drafted id)]
  obtain ⟨ledger,frame⟩ := typed.frame
  have slots : q.slots ++ [m] = (untyped db cycle).slots ++ (made ++ [m]) := by rw [frame,List.append_assoc]
  have activities : q.activities = db.activities := by rw [frame]; rfl
  have cycles : q.cycles = (setCycle db (inService cycle)).cycles := by rw [frame]; rfl
  have today : q.orgToday = db.orgToday := by rw [frame]; rfl
  have listed' : ∀ other ∈ done ++ [slot], other ∈ slotsOfCycle db cycle.id :=
    List.forall_mem_append.mpr ⟨typed.listed,List.forall_mem_singleton.mpr listed⟩
  have all := typed_snoc typed.like like
  obtain ⟨later,wrote⟩ := writeAll_frame (fillRows cal {q with slots := q.slots ++ [m]} settings cycle.id) {q with slots := q.slots ++ [m]}
  refine ⟨⟨later,?_⟩,all,listed',?_,fun row old => writeAll_kept (typed.kept row old),?_,?_⟩
  · rw [wrote,slots,frame]
  · rw [wrote]
    exact keys
  · intro row stored
    rcases writeAll_wrote stored with old | ⟨fields,written,number,rfl⟩
    · rcases typed.rows row old with older | ⟨other,there,day⟩
      · exact .inl older
      · exact .inr ⟨other,List.mem_append_left _ there,day⟩
    · obtain ⟨item,missing,rfl⟩ := List.mem_map.mp ((FirstCome.pick_sublist _ _).subset written)
      obtain ⟨⟨booked,planned,of,asked⟩,low,high,_⟩ := mem_horizonMissing.mp missing
      obtain ⟨mine,dated⟩ := planned_typed (q := {q with slots := q.slots ++ [m]}) drafted activities cycles slots all listed' planned
        (asked _ rfl)
      rw [of] at mine dated
      refine .inr ⟨item.2,mine,?_,?_,?_⟩
      · rw [horizonFields_due ⟨low,high⟩]
        exact dayOf_row _ _ _ _
      · have opens : q.orgToday+1 ≤ item.1 := low
        change db.orgToday < item.1
        omega
      · exact dated
  · intro other there on
    rcases List.mem_append.mp there with old | new
    · obtain ⟨row,stored,day⟩ := typed.tomorrow other old on
      exact ⟨row,writeAll_kept stored,day⟩
    · cases List.mem_singleton.mp new
      obtain ⟨number,stored⟩ := writeAll_each (seated on)
      exact ⟨_,stored,dayOf_row _ _ _ _,rfl⟩

end

theorem typed_start (drafted : Drafted cal db cycle) : Typed cal db cycle [] [] (untyped db cycle) where
  frame := ⟨db.ledger,by rw [List.append_nil]; rfl⟩
  like := .nil
  listed := fun _ none => absurd none List.not_mem_nil
  keys := drafted.slots.sublist (List.filter_sublist.map _)
  kept := fun _ stored => stored
  rows := fun _ stored => .inl stored
  tomorrow := fun _ none => absurd none List.not_mem_nil

-- The whole list, typed in from wherever the typing has come to.
theorem createAll_exact (drafted : Drafted cal db cycle) (horizon : 1 ≤ settings.horizonDays) (admin : currentUser.roleType = .orgAdmin)
    {order : List StructuralMasterSlot} {payloads : List MasterSlotCreate} (types : List.Forall₂ (Types strip db) order payloads)
    (typed : Typed cal db cycle done made q) (listed : ∀ slot ∈ order, slot ∈ slotsOfCycle db cycle.id) :
    (∃ after, createAll cal sha256 strip settings currentUser q payloads = .ok after) ↔
      (∀ slot ∈ order, Free cal (untyped db cycle) (inService cycle) slot) ∧
        (∀ slot ∈ order, ∀ other ∈ done, ¬ Collide cal (inService cycle) db.orgToday slot other) ∧
        order.Pairwise (fun one two => ¬ Collide cal (inService cycle) db.orgToday one two) := by
  induction types generalizing done made q with
  | nil => simp [createAll]
  | @cons slot payload order payloads first rest ih =>
    obtain ⟨here,others⟩ := List.forall_mem_cons.mp listed
    obtain ⟨room,_,roomed,_⟩ := first.room
    obtain ⟨ledger,frame⟩ := typed.frame
    obtain ⟨accepts,makes⟩ := @create_exact cal sha256 strip settings db cycle currentUser drafted q slot payload ⟨_,ledger,frame⟩ admin here first
    have clear := typed.clear drafted roomed
    simp only [List.forall_mem_cons,List.pairwise_cons]
    constructor
    · intro ⟨after,done_⟩
      obtain ⟨⟨next,view⟩,created,rest_⟩ := bind_parts.mp done_
      have checks := accepts.mp ⟨next,view,created⟩
      obtain ⟨free,apart⟩ := clear.mp checks
      obtain ⟨m,id,claim,activity,live,rfl⟩ := makes next view created
      have later := typed.filled drafted horizon here ⟨claim,activity,live⟩ id checks.2.1 checks.2.2
      obtain ⟨frees,aparts,pairs⟩ := (ih later others).mp ⟨after,rest_⟩
      refine ⟨⟨free,frees⟩,⟨apart,fun other there t listed_ => aparts other there t (List.mem_append_left _ listed_)⟩,?_,pairs⟩
      exact fun other there collide => aparts other there slot (List.mem_append_right _ List.mem_cons_self) collide.symm
    · intro ⟨⟨free,frees⟩,⟨apart,aparts⟩,heads,pairs⟩
      have checks := clear.mpr ⟨free,apart⟩
      obtain ⟨next,view,created⟩ := accepts.mpr checks
      obtain ⟨m,id,claim,activity,live,rfl⟩ := makes next view created
      have later := typed.filled drafted horizon here ⟨claim,activity,live⟩ id checks.2.1 checks.2.2
      have heads' : ∀ other ∈ order, ∀ t ∈ done ++ [slot], ¬ Collide cal (inService cycle) db.orgToday other t := by
        intro other there t drawn
        rcases List.mem_append.mp drawn with old | new
        · exact aparts other there t old
        · cases List.mem_singleton.mp new
          exact fun collide => heads other there collide.symm
      obtain ⟨after,rest_⟩ := (ih later others).mpr ⟨frees,heads',pairs⟩
      exact ⟨after,bind_parts.mpr ⟨_,created,rest_⟩⟩

end

-- open_cycle asks every pair from both sides, which is once too often and
-- nothing more.
theorem unblocked_exact (drafted : Drafted cal db cycle) (roomed : ∀ slot ∈ slotsOfCycle db cycle.id, slot.resourceId ≠ none) :
    (∀ slot ∈ slotsOfCycle db cycle.id, blockedBy cal (setCycle db (inService cycle)) (inService cycle) slot = []) ↔
      (∀ slot ∈ slotsOfCycle db cycle.id, Free cal (untyped db cycle) (inService cycle) slot) ∧
        (slotsOfCycle db cycle.id).Pairwise (fun one two => ¬ Collide cal (inService cycle) db.orgToday one two) := by
  constructor
  · intro clear
    have each := fun slot listed => (blockedBy_exact drafted listed (roomed slot listed)).mp (clear slot listed)
    refine ⟨fun slot listed => (each slot listed).1,?_⟩
    refine (List.pairwise_map.mp (slotsOfCycle_distinct drafted.slots cycle.id)).imp_of_mem ?_
    intro one two left right apart ⟨room,d,e,on,on',low,low',ahead,met⟩
    rcases ahead with soon | soon
    · exact (each one left).2 two right apart.symm room.symm d e soon on on' met
    · exact (each two right).2 one left apart room e d soon on' on met.symm
  · intro ⟨free,pairs⟩ slot listed
    refine (blockedBy_exact drafted listed (roomed slot listed)).mpr ⟨free slot listed,?_⟩
    intro other there apart room d e ahead on on' met
    have near := meets_near met
    have symm : Std.Symm (fun one two => ¬ Collide cal (inService cycle) db.orgToday one two) := ⟨fun _ _ free collide => free collide.symm⟩
    exact pairs.forall listed there (fun same => apart (congrArg StructuralMasterSlot.id same.symm))
      ⟨room.symm,d,e,on,on',by omega,by omega,.inl ahead,met⟩

-- A database session: what is committed, and what the request sees of its own
-- writes.
structure Session where
  committed : Database
  working : Database
  deriving DecidableEq, Repr

-- open_cycle with its flush, its commit and its rollback.
def openCycleIn (cal : Recurrence) (s : Session) (cycleId : Nat) (currentUser : User) : Session × Answer String :=
  match requireRoles [.orgAdmin] currentUser with
  | .error refusal => (s,.error refusal)
  | .ok _ =>
    match s.working.cycle? cycleId with
    | none => (s,.error (notFound "Cycle not found"))
    | some cycle =>
      if cycle.operationalStatus = true then (s,.ok s!"Cycle {cycleId} was already open") else
      let slots := slotsOfCycle s.working cycleId
      let flushed : Session := {s with working := setCycle s.working (inService cycle)}
      let conflicts := slots.flatMap (blockedBy cal flushed.working (inService cycle))
      if conflicts = [] then ({flushed with committed := flushed.working},.ok s!"Cycle {cycleId} opened")
      else ({flushed with working := flushed.committed},.error ⟨409,.blocked cycleIsBlocked conflicts,.resourceConflict⟩)

theorem openCycleIn_exact (db : Database) (cycleId : Nat) (currentUser : User) : openCycleIn cal ⟨db,db⟩ cycleId currentUser =
    match openCycle cal db cycleId currentUser with
    | .ok (next,message) => (⟨next,next⟩,.ok message)
    | .error refusal => (⟨db,db⟩,.error refusal) := by
  unfold openCycleIn openCycle
  cases requireRoles [.orgAdmin] currentUser with
  | error refusal => rfl
  | ok _ =>
    cases known : db.cycle? cycleId with
    | none => rfl
    | some cycle =>
      simp only [found,bind,Except.bind]
      split
      · rfl
      · by_cases clear : (slotsOfCycle db cycleId).flatMap (blockedBy cal (setCycle db (inService cycle)) (inService cycle)) = []
        · rw [if_pos clear]
          have passed : ensure ((slotsOfCycle db cycleId).flatMap (blockedBy cal (setCycle db (inService cycle)) (inService cycle)) = [])
            ⟨409,.blocked cycleIsBlocked ((slotsOfCycle db cycleId).flatMap (blockedBy cal (setCycle db (inService cycle)) (inService cycle))),
              .resourceConflict⟩ = .ok () := if_pos clear
          unfold inService at passed
          simp only [passed]
          rfl
        · rw [if_neg clear]
          have stopped : ensure ((slotsOfCycle db cycleId).flatMap (blockedBy cal (setCycle db (inService cycle)) (inService cycle)) = [])
            ⟨409,.blocked cycleIsBlocked ((slotsOfCycle db cycleId).flatMap (blockedBy cal (setCycle db (inService cycle)) (inService cycle))),
              .resourceConflict⟩ = .error ⟨409,.blocked cycleIsBlocked ((slotsOfCycle db cycleId).flatMap
                (blockedBy cal (setCycle db (inService cycle)) (inService cycle))),.resourceConflict⟩ := if_neg clear
          unfold inService at stopped
          simp only [stopped]
          rfl

theorem openCycleIn_accepts (drafted : Drafted cal db cycle) (admin : currentUser.roleType = .orgAdmin) :
    (∃ after message, openCycleIn cal ⟨db,db⟩ cycle.id currentUser = (after,.ok message)) ↔
      ∀ slot ∈ slotsOfCycle db cycle.id, blockedBy cal (setCycle db (inService cycle)) (inService cycle) slot = [] := by
  rw [← openCycle_exact drafted admin,openCycleIn_exact]
  cases openCycle cal db cycle.id currentUser with
  | error refusal => simp
  | ok answered => exact ⟨fun _ => ⟨answered.1,answered.2,rfl⟩,fun _ => ⟨_,_,rfl⟩⟩

-- Opening a drafted cycle and typing its slots into the open one, in any order,
-- are accepted together, and an opening that is refused leaves nothing behind.
theorem opening_types_slots (cal : Recurrence) (sha256 strip : String → String) (settings : LedgerSettings) (horizon : 1 ≤ settings.horizonDays)
    (db : Database) (cycle : PlanningCycle) (currentUser : User) (admin : currentUser.roleType = .orgAdmin) (drafted : Drafted cal db cycle) :
    (∀ order payloads, order.Perm (slotsOfCycle db cycle.id) → List.Forall₂ (Types strip db) order payloads →
      ((∃ after message, openCycleIn cal ⟨db,db⟩ cycle.id currentUser = (after,.ok message)) ↔
        ∃ after, createAll cal sha256 strip settings currentUser (untyped db cycle) payloads = .ok after)) ∧
    ∀ refusal, (openCycleIn cal ⟨db,db⟩ cycle.id currentUser).2 = .error refusal →
      (openCycleIn cal ⟨db,db⟩ cycle.id currentUser).1 = ⟨db,db⟩ := by
  constructor
  · intro order payloads perm types
    have roomed : ∀ slot ∈ slotsOfCycle db cycle.id, slot.resourceId ≠ none := by
      intro slot listed none
      obtain ⟨payload,_,typed⟩ := (typed_left types).1 slot (perm.mem_iff.mpr listed)
      obtain ⟨room,_,here,_⟩ := typed.room
      rw [here] at none
      cases none
    rw [openCycleIn_accepts drafted admin,unblocked_exact drafted roomed,
      createAll_exact drafted horizon admin types (typed_start drafted) (fun slot listed => perm.mem_iff.mp listed),
      perm.pairwise_iff (fun free collide => free collide.symm)]
    simp only [perm.mem_iff,List.not_mem_nil,false_implies,implies_true,true_and]
  · intro refusal refused
    rw [openCycleIn_exact] at refused ⊢
    cases answer : openCycle cal db cycle.id currentUser with
    | error _ => rfl
    | ok answered =>
      rw [answer] at refused
      cases refused

-- Tonight's class and the one of tomorrow morning, in a cycle drafted until
-- tomorrow.
def nightShift : MasterSlotCreate := ⟨weeklyRule 2,some 100,clock 22 0,clock 6 0,1,none,"A",ten_at_night_to_six⟩

def morningShift (start finish : Time) (proper : finish ≠ start) : MasterSlotCreate :=
  ⟨weeklyRule 3,some 101,start,finish,1,none,"A",proper⟩

def shiftDraft (morning : MasterSlotCreate) : Database := performAll plainRuntime (staffed 100)
  [.createCycle ⟨"term",90,101,false,by decide⟩ registrar,.createActivity ⟨"WARD","Ward","SCI",1⟩ registrar,
    .createMasterSlot nightShift registrar,.createMasterSlot morning registrar]

def shiftTerm : PlanningCycle := ⟨1,"term",90,101,false⟩

theorem later_shift_typed : (∃ after message, openCycleIn plainRules ⟨shiftDraft (morningShift (clock 6 0) (clock 9 0) (by decide)),
      shiftDraft (morningShift (clock 6 0) (clock 9 0) (by decide))⟩ 1 registrar = (after,.ok message)) ∧
    ∃ after, createAll plainRules id id plainRuntime.settings registrar (untyped (shiftDraft (morningShift (clock 6 0) (clock 9 0) (by decide)))
      shiftTerm) [morningShift (clock 6 0) (clock 9 0) (by decide),nightShift] = .ok after := by
  have drafted : Drafted plainRules (shiftDraft (morningShift (clock 6 0) (clock 9 0) (by decide))) shiftTerm :=
    ⟨by decide,by decide,by decide,by decide,by decide,by decide,by decide⟩
  have opened : ∃ after message, openCycleIn plainRules ⟨shiftDraft (morningShift (clock 6 0) (clock 9 0) (by decide)),
      shiftDraft (morningShift (clock 6 0) (clock 9 0) (by decide))⟩ 1 registrar = (after,.ok message) := ⟨_,_,rfl⟩
  refine ⟨opened,((opening_types_slots plainRules id id plainRuntime.settings (by decide) _ shiftTerm registrar rfl drafted).1
    [⟨2,weeklyRule 3,101,clock 6 0,clock 9 0,1,none,some 1,false⟩,⟨1,weeklyRule 2,100,clock 22 0,clock 6 0,1,none,some 1,false⟩] _
    (by decide) ?_).mp opened⟩
  exact .cons ⟨rfl,rfl,rfl,rfl,rfl,by decide,rfl⟩ (.cons ⟨rfl,rfl,rfl,rfl,rfl,by decide,rfl⟩ .nil)

-- An hour earlier the two are refused together, whichever is typed in first.
example : (openCycleIn plainRules ⟨shiftDraft (morningShift (clock 5 0) (clock 9 0) (by decide)),
    shiftDraft (morningShift (clock 5 0) (clock 9 0) (by decide))⟩ 1 registrar).2.toOption = none := by decide

end ChronosLedger
