import ChronosLedger.TimetableSound

namespace ChronosLedger
open Spans

variable {cal : Recurrence} {db next : Database}

-- The key of the table: one day per slot and date.
def OneADay (db : Database) : Prop :=
  ∀ one two slotId, one ∈ db.ledger → two ∈ db.ledger → one.masterSlotId = some slotId → two.masterSlotId = some slotId →
    one.targetDate = two.targetDate → one = two

-- A room named by a slot or a day is on record.
structure RoomsKnown (db : Database) : Prop where
  slots : ∀ slot ∈ db.slots, ∀ room, slot.resourceId = some room → room ∈ db.resources.map Resource.id
  days : ∀ row ∈ db.ledger, ∀ room, row.resourceId = some room → room ∈ db.resources.map Resource.id

-- What every operation keeps of the ledger, whatever it does to the windows of
-- the days of one slot.
structure Tended (cal : Recurrence) (db : Database) : Prop where
  order : InOrder cal db
  known : RoomsKnown db
  dated : OneADay db
  cross : DaysCross db

theorem OneADay.kept (dated : OneADay db) (rows : ∀ row ∈ next.ledger, ∃ old ∈ db.ledger, old.id = row.id ∧
    old.targetDate = row.targetDate ∧ ∀ slotId, row.masterSlotId = some slotId → old.masterSlotId = some slotId)
    (distinct : (next.ledger.map DailyLedger.id).Nodup) : OneADay next := by
  intro one two slotId left right of of' date
  obtain ⟨old,there,id,day,slot⟩ := rows one left
  obtain ⟨old',there',id',day',slot'⟩ := rows two right
  have same := dated old old' slotId there there' (slot slotId of) (slot' slotId of') (by rw [day,day',date])
  subst same
  exact same_of_key distinct left right (id.symm.trans id')

theorem OneADay.written (dated : OneADay db) {fields : DayFields} (absent : hasDay db fields.masterSlotId fields.targetDate = false) :
    OneADay (writeDay db fields) := by
  have none : ∀ row ∈ db.ledger, row.masterSlotId = some fields.masterSlotId → row.targetDate ≠ fields.targetDate := by
    intro row stored of date
    have free := List.any_eq_false.mp absent row stored
    simp [of,date] at free
  intro one two slotId left right of of' date
  rcases List.mem_append.mp left with old | added
  · rcases List.mem_append.mp right with old' | added'
    · exact dated one two slotId old old' of of' date
    · cases List.mem_singleton.mp added'
      exact absurd date (none one old (of.trans of'.symm))
  · rcases List.mem_append.mp right with old' | added'
    · cases List.mem_singleton.mp added
      exact absurd date.symm (none two old' (of'.trans of.symm))
    · exact (List.mem_singleton.mp added).trans (List.mem_singleton.mp added').symm

-- A slot of the next timetable is at a room that one was at, or at a room on
-- record; a day is at such a room too.
theorem RoomsKnown.kept (known : RoomsKnown db)
    (resources : ∀ room ∈ db.resources.map Resource.id, room ∈ next.resources.map Resource.id)
    (slots : ∀ slot ∈ next.slots, ∀ room, slot.resourceId = some room →
      room ∈ db.resources.map Resource.id ∨ ∃ old ∈ db.slots, old.resourceId = some room)
    (days : ∀ row ∈ next.ledger, ∀ room, row.resourceId = some room → (∃ old ∈ db.ledger, old.resourceId = some room) ∨
      ∃ slot ∈ next.slots, slot.resourceId = some room) : RoomsKnown next := by
  have placed : ∀ slot ∈ next.slots, ∀ room, slot.resourceId = some room → room ∈ next.resources.map Resource.id := by
    intro slot stored room here
    rcases slots slot stored room here with there | ⟨old,was,at_⟩
    · exact resources room there
    · exact resources room (known.slots old was room at_)
  refine ⟨placed,fun row stored room here => ?_⟩
  rcases days row stored room here with ⟨old,was,at_⟩ | ⟨slot,listed,at_⟩
  · exact resources room (known.days old was room at_)
  · exact placed slot listed room at_

theorem roomsKnown_still (known : RoomsKnown db) (resources : next.resources = db.resources) (slots : next.slots = db.slots)
    (ledger : next.ledger.map core = db.ledger.map core) : RoomsKnown next := by
  refine known.kept (fun _ there => resources ▸ there) (fun slot stored room here => .inr ⟨slot,slots ▸ stored,here⟩) ?_
  intro row stored room here
  obtain ⟨old,there,cores⟩ := core_member ledger.symm stored
  exact .inl ⟨old,there,(stays_core cores).room.symm.trans here⟩

theorem RoomsKnown.preserved (known : RoomsKnown db) (move : TimetableMove cal db next) : RoomsKnown next := by
  have same : ∀ {next : Database}, next.ledger = db.ledger → ∀ row ∈ next.ledger, ∀ room, row.resourceId = some room →
      (∃ old ∈ db.ledger, old.resourceId = some room) ∨ ∃ slot ∈ next.slots, slot.resourceId = some room :=
    fun equal row stored room here => .inl ⟨row,equal ▸ stored,here⟩
  cases move with
  | hold move =>
    cases move with
    | refit fits =>
      refine known.kept (fun room there => ?_) (fun slot stored room here => .inr ⟨slot,stored,here⟩) (same rfl)
      obtain ⟨resource,stored,rfl⟩ := List.mem_map.mp there
      rename_i _ updated
      simp only [ChronosLedger.refit,List.map_map,List.mem_map,Function.comp_apply]
      refine ⟨resource,stored,?_⟩
      split
      · rename_i equal
        exact equal.symm
      · rfl
    | book => exact roomsKnown_still known rfl rfl rfl
    | release => exact roomsKnown_still known rfl rfl rfl
    | advance => exact roomsKnown_still known rfl rfl rfl
  | aside kept => exact roomsKnown_still known kept.resources kept.slots kept.ledger
  | room =>
    refine known.kept (fun room there => ?_) (fun slot stored room here => .inr ⟨slot,stored,here⟩) (same rfl)
    rw [List.map_append]
    exact List.mem_append_left _ there
  | slot fresh anchored clear housed =>
    refine known.kept (fun _ there => there) (fun slot stored room here => ?_) (same rfl)
    rcases List.mem_append.mp stored with old | new
    · exact .inr ⟨slot,old,here⟩
    · cases List.mem_singleton.mp new
      exact housed room here
  | @relocate slot moved stored named activity retired rule start clear housed =>
    rw [relocate_parts]
    refine known.kept (fun _ there => there) (fun other member room here => ?_) (fun row member room here => ?_)
    · rcases setSlot_member member with rfl | ⟨old,_⟩
      · exact housed room here
      · exact .inr ⟨other,old,here⟩
    · obtain ⟨old,there,rfl⟩ := List.mem_map.mp member
      unfold relocated at here
      split at here
      · rw [correctedDay_room] at here
        exact .inr ⟨moved,setSlot_stored stored named.symm,here⟩
      · exact .inl ⟨old,there,here⟩
  | @restart slot moved stored named activity retired idle clear housed =>
    rw [dropDays_idle idle]
    refine known.kept (fun _ there => there) (fun other member room here => ?_)
      (fun row member room here => .inl ⟨row,(List.mem_filter.mp member).1,here⟩)
    rcases setSlot_member member with rfl | ⟨old,_⟩
    · exact housed room here
    · exact .inr ⟨other,old,here⟩
  | windDown winds =>
    rw [dropPlans_idle]
    refine known.kept (fun _ there => winds.resources.symm ▸ there) (fun slot member room here => ?_)
      (fun row member room here => .inl ⟨row,winds.ledger ▸ (List.mem_filter.mp member).1,here⟩)
    obtain ⟨old,stored,rfl⟩ := List.mem_map.mp (winds.slots ▸ member)
    rcases winds.shape old with equal | equal <;> rw [equal] at here <;> exact .inr ⟨old,stored,here⟩
  | @write slot day state on absent free =>
    refine known.kept (fun _ there => there) (fun slot stored room here => .inr ⟨slot,stored,here⟩) (fun row member room here => ?_)
    rcases List.mem_append.mp member with old | new
    · exact .inl ⟨row,old,here⟩
    · cases List.mem_singleton.mp new
      exact .inr ⟨slot,on.1,here⟩
  | _ => exact roomsKnown_still known rfl rfl rfl

theorem OneADay.preserved (dated : OneADay db) (keys : Keys db) (move : TimetableMove cal db next) : OneADay next := by
  have after := keys.preserved move
  have same : ∀ {next : Database}, (next.ledger.map DailyLedger.id).Nodup → next.ledger.map core = db.ledger.map core → OneADay next := by
    intro next distinct ledger
    refine dated.kept (fun row stored => ?_) distinct
    obtain ⟨old,there,cores⟩ := core_member ledger.symm stored
    have stays := stays_core cores
    exact ⟨old,there,stays.id.symm,stays.date.symm,fun slotId of => stays.slot.symm.trans of⟩
  cases move with
  | hold move => exact same after.days (by rw [move.ledger])
  | aside kept => exact same after.days kept.ledger
  | write on absent free => exact dated.written absent
  | relocate =>
    refine dated.kept (fun row member => ?_) after.days
    rw [relocate_parts] at member
    obtain ⟨old,there,rfl⟩ := List.mem_map.mp member
    exact ⟨old,there,by simp,by simp,fun slotId of => by simpa using of⟩
  | restart _ _ _ _ idle =>
    refine dated.kept (fun row member => ?_) after.days
    rw [dropDays_idle idle] at member
    exact ⟨row,(List.mem_filter.mp member).1,rfl,rfl,fun _ of => of⟩
  | windDown winds =>
    refine dated.kept (fun row member => ?_) after.days
    rw [dropPlans_idle] at member
    exact ⟨row,winds.ledger ▸ (List.mem_filter.mp member).1,rfl,rfl,fun _ of => of⟩
  | _ => exact same after.days rfl

theorem Tended.preserved (tended : Tended cal db) (move : TimetableMove cal db next) : Tended cal next :=
  ⟨tended.order.preserved move,tended.known.preserved move,tended.dated.preserved tended.order.toKeys move,
    tended.cross.preserved tended.order move⟩

theorem Tended.removed (tended : Tended cal db) (removal : SlotRemoval db next) : Tended cal next := by
  have order := tended.order.removed removal
  cases removal with
  | remove idle =>
    rename_i slotId
    refine ⟨order,?_,?_,days_removed tended.cross idle⟩
    · unfold ChronosLedger.remove
      rw [dropDays_idle idle]
      refine tended.known.kept (fun _ there => there) (fun slot member room here => .inr ⟨slot,(List.mem_filter.mp member).1,here⟩) ?_
      intro row member room here
      obtain ⟨old,there,rfl⟩ := List.mem_map.mp member
      refine .inl ⟨old,(List.mem_filter.mp there).1,?_⟩
      unfold detachDay at here
      split at here <;> exact here
    · refine tended.dated.kept (fun row member => ?_) order.days
      unfold ChronosLedger.remove at member
      rw [dropDays_idle idle] at member
      obtain ⟨old,there,rfl⟩ := List.mem_map.mp member
      refine ⟨old,(List.mem_filter.mp there).1,?_⟩
      unfold detachDay
      split
      · exact ⟨rfl,rfl,fun _ no => by cases no⟩
      · exact ⟨rfl,rfl,fun _ of => of⟩

theorem Tended.moved (tended : Tended cal db) (moves : TimetableMoves cal db next) : Tended cal next := by
  induction moves with
  | refl => exact tended
  | tail _ move ih => exact ih.preserved move

-- The days there are were there before, where they are.
def Thinned (db next : Database) : Prop := ∀ row ∈ next.ledger, ∃ old ∈ db.ledger, Stays old row

theorem Thinned.refl (db : Database) : Thinned db db := fun row stored => ⟨row,stored,.refl row⟩

theorem thinned_core (same : next.ledger.map core = db.ledger.map core) : Thinned db next := by
  intro row stored
  obtain ⟨old,there,cores⟩ := core_member same.symm stored
  exact ⟨old,there,stays_core cores⟩

theorem thinned_sublist (part : next.ledger.Sublist db.ledger) : Thinned db next := fun row stored => ⟨row,part.subset stored,.refl row⟩

-- Two days of one slot, or of no slot, do not meet.
def OwnApart (db : Database) : Prop :=
  ∀ one two room span other, one ∈ db.ledger → two ∈ db.ledger → one.id ≠ two.id → one.masterSlotId = two.masterSlotId →
    Takes one room span → Takes two room other → ¬ Meets span other

theorem OwnApart.thinned (own : OwnApart db) (thinned : Thinned db next) : OwnApart next := by
  intro one two room span other left right distinct same takes takes'
  obtain ⟨old,there,stays⟩ := thinned one left
  obtain ⟨old',there',stays'⟩ := thinned two right
  exact own old old' room span other there there' (by rw [← stays.id,← stays'.id]; exact distinct)
    (by rw [← stays.slot,← stays'.slot]; exact same) (stays.takes takes) (stays'.takes takes')

theorem OwnApart.removed (own : OwnApart db) (cross : DaysCross db) (removal : SlotRemoval db next) : OwnApart next := by
  cases removal with
  | remove idle =>
    intro one two room span other left right distinct same takes takes'
    obtain ⟨old,there,was,named,_,_⟩ := removed_takes idle left takes
    obtain ⟨old',there',was',named',_,_⟩ := removed_takes idle right takes'
    by_cases of : old.masterSlotId = old'.masterSlotId
    · exact own old old' room span other there there' (by rw [named,named']; exact distinct) of was was'
    · exact cross old old' room span other there there' was was' of

-- Slots deleted one after another.
theorem Tended.cleared (tended : Tended cal db) (own : OwnApart db) (removals : SlotRemovals db next) :
    Tended cal next ∧ OwnApart next := by
  induction removals with
  | refl => exact ⟨tended,own⟩
  | tail _ removal ih => exact ⟨ih.1.removed removal,ih.2.removed ih.1.cross removal⟩

-- The days of a slot that a correction passes over, on one room: those in use
-- and those not ahead.
def keptDays (db : Database) (slotId room : Nat) : List DatedDay :=
  (db.ledger.filter (fun row => row.masterSlotId = some slotId ∧ ¬ (db.orgToday < row.targetDate ∧ inUse db row.id = false))).filterMap
    (datedDay db (some room))

-- The dates a correction moves.
def plannedDates (db : Database) (slotId : Nat) : List Int :=
  (db.ledger.filter (fun row => row.masterSlotId = some slotId ∧ db.orgToday < row.targetDate ∧ inUse db row.id = false)).map
    DailyLedger.targetDate

-- No day the slot keeps is in the way of one that moves.
def MovesClear (db : Database) (slotId : Nat) (room : Option Nat) (start finish : Time) : Prop :=
  ∀ r ∈ room, ∀ day ∈ keptDays db slotId r, ∀ date ∈ plannedDates db slotId, ¬ Meets (daySpan day) (windowSpan date start finish)

instance (db : Database) (slotId : Nat) (room : Option Nat) (start finish : Time) : Decidable (MovesClear db slotId room start finish) := by
  unfold MovesClear; infer_instance

theorem mem_keptDays {slotId room : Nat} {row : DailyLedger} {span : Int × Int} (stored : row ∈ db.ledger)
    (of : row.masterSlotId = some slotId) (stays : ¬ (db.orgToday < row.targetDate ∧ inUse db row.id = false))
    (takes : Takes row room span) : ∃ day ∈ keptDays db slotId room, daySpan day = span := by
  obtain ⟨other,here,same,equal⟩ := takes_onRoom stored takes
  exact ⟨other,List.mem_filterMap.mpr ⟨row,List.mem_filter.mpr ⟨stored,decide_eq_true ⟨of,stays⟩⟩,same ▸ here.2⟩,equal⟩

theorem movesClear_exact {slotId : Nat} {room : Option Nat} {start finish : Time} : MovesClear db slotId room start finish ↔
    ∀ r, room = some r → ∀ kept ∈ db.ledger, ∀ plan ∈ db.ledger, ∀ span, kept.masterSlotId = some slotId →
      ¬ (db.orgToday < kept.targetDate ∧ inUse db kept.id = false) → Takes kept r span → plan.masterSlotId = some slotId →
      db.orgToday < plan.targetDate ∧ inUse db plan.id = false → ¬ Meets span (windowSpan plan.targetDate start finish) := by
  constructor
  · intro clear r here kept stored plan listed span of stays takes of' goes
    obtain ⟨day,there,rfl⟩ := mem_keptDays stored of stays takes
    exact clear r here day there plan.targetDate (List.mem_map_of_mem (List.mem_filter.mpr ⟨listed,decide_eq_true ⟨of',goes⟩⟩))
  · intro clear r here day there date listed
    obtain ⟨row,member,dated⟩ := List.mem_filterMap.mp there
    obtain ⟨stored,mine⟩ := List.mem_filter.mp member
    have mine := of_decide_eq_true mine
    obtain ⟨plan,member',rfl⟩ := List.mem_map.mp listed
    obtain ⟨stored',theirs⟩ := List.mem_filter.mp member'
    have theirs := of_decide_eq_true theirs
    obtain ⟨_,_,_,same,_⟩ := datedDay_parts.mp dated
    have takes := (onRoom_takes (show OnRoom db (some r) day from ⟨same ▸ stored,same ▸ dated⟩)).2
    exact clear r here row stored plan stored' (daySpan day) mine.1 mine.2 (same ▸ takes) theirs.1 theirs.2

theorem takes_corrected {slot : StructuralMasterSlot} {row : DailyLedger} {room : Nat} {span : Int × Int}
    (takes : Takes (correctedDay slot row) room span) : slot.resourceId = some room ∧ span = slotSpan slot row.targetDate := by
  obtain ⟨on,start,finish,opens,closes,rfl⟩ := takes
  rw [correctedDay_room] at on
  rw [correctedDay_start] at opens
  rw [correctedDay_end] at closes
  cases Option.some.inj opens
  cases Option.some.inj closes
  exact ⟨on,by rw [correctedDay_date]; rfl⟩

-- Corrections brought along to the days ahead. Two days that moved are at one
-- window on two dates; one that moved and one that did not are what was asked.
theorem OwnApart.propagated (own : OwnApart db) (dated : OneADay db) {slots : List StructuralMasterSlot}
    (clear : ∀ slot ∈ slots, MovesClear db slot.id slot.resourceId slot.timeWindowStart slot.timeWindowEnd) :
    OwnApart (propagateSlotCorrections db slots).1 := by
  have cases_ : ∀ row, propagateDay db slots row = row ∧ (∀ slot ∈ slots, slotOf slots row = some slot →
        ¬ (db.orgToday < row.targetDate ∧ inUse db row.id = false)) ∨
      ∃ slot ∈ slots, slotOf slots row = some slot ∧ row.masterSlotId = some slot.id ∧
        (db.orgToday < row.targetDate ∧ inUse db row.id = false) ∧ propagateDay db slots row = correctedDay slot row := by
    intro row
    unfold propagateDay
    cases of : slotOf slots row with
    | none => exact .inl ⟨rfl,fun _ _ no => by cases no⟩
    | some slot =>
      obtain ⟨id,named,found_⟩ := Option.bind_eq_some_iff.mp of
      obtain ⟨listed,rfl⟩ := find_key found_
      by_cases goes : db.orgToday < row.targetDate ∧ inUse db row.id = false
      · exact .inr ⟨slot,listed,rfl,named,goes,if_pos goes⟩
      · refine .inl ⟨if_neg goes,fun other _ equal => ?_⟩
        cases Option.some.inj equal
        exact goes
  have ids : ∀ row, (propagateDay db slots row).id = row.id ∧ (propagateDay db slots row).masterSlotId = row.masterSlotId := by
    intro row
    rcases cases_ row with ⟨same,_⟩ | ⟨slot,_,_,_,_,same⟩ <;> rw [same] <;> simp
  have mixed : ∀ {kept plan : DailyLedger} {slot : StructuralMasterSlot} {room : Nat} {span : Int × Int}, kept ∈ db.ledger → plan ∈ db.ledger →
      slot ∈ slots → slotOf slots plan = some slot → plan.masterSlotId = some slot.id → kept.masterSlotId = plan.masterSlotId →
      (db.orgToday < plan.targetDate ∧ inUse db plan.id = false) →
      (∀ s ∈ slots, slotOf slots kept = some s → ¬ (db.orgToday < kept.targetDate ∧ inUse db kept.id = false)) →
      Takes kept room span → slot.resourceId = some room → ¬ Meets span (slotSpan slot plan.targetDate) := by
    intro kept plan slot room span stored listed member of named same goes stays takes here
    have alike : slotOf slots kept = some slot := by
      unfold slotOf at of ⊢
      rw [same]
      exact of
    exact movesClear_exact.mp (clear slot member) room here kept stored plan listed span (same.trans named) (stays slot member alike)
      takes named goes
  intro one two room span other left right distinct same takes takes'
  obtain ⟨old,there,rfl⟩ := List.mem_map.mp left
  obtain ⟨old',there',rfl⟩ := List.mem_map.mp right
  rw [(ids old).1,(ids old').1] at distinct
  rw [(ids old).2,(ids old').2] at same
  rcases cases_ old with ⟨still,stays⟩ | ⟨slot,member,of,named,goes,moved⟩
  · rw [still] at takes
    rcases cases_ old' with ⟨still',_⟩ | ⟨slot',member',of',named',goes',moved'⟩
    · rw [still'] at takes'
      exact own old old' room span other there there' distinct same takes takes'
    · rw [moved'] at takes'
      obtain ⟨here,rfl⟩ := takes_corrected takes'
      exact mixed there there' member' of' named' same goes' stays takes here
  · rw [moved] at takes
    obtain ⟨here,rfl⟩ := takes_corrected takes
    rcases cases_ old' with ⟨still',stays'⟩ | ⟨slot',member',of',named',goes',moved'⟩
    · rw [still'] at takes'
      exact fun met => mixed there' there member of named same.symm goes stays' takes' here met.symm
    · rw [moved'] at takes'
      obtain ⟨_,rfl⟩ := takes_corrected takes'
      have alike : slot' = slot := by
        unfold slotOf at of of'
        rw [← same,of] at of'
        exact (Option.some.inj of').symm
      subst alike
      refine span_apart (fun date => distinct ?_) _ _
      rw [dated old old' slot'.id there there' named named' date]

-- A written day against the days of its own slot.
theorem OwnApart.written (own : OwnApart db) {fields : DayFields} (free : ∀ row ∈ db.ledger, row.masterSlotId = some fields.masterSlotId →
    ∀ room span, fields.resourceId = some room → Takes row room span → ¬ Meets span (fieldsSpan fields)) : OwnApart (writeDay db fields) := by
  have new : ∀ {room : Nat} {span : Int × Int}, Takes (dayRow (nextId (db.ledger.map DailyLedger.id)) fields) room span →
      fields.resourceId = some room ∧ span = fieldsSpan fields := by
    rintro room span ⟨on,start,finish,opens,closes,rfl⟩
    cases Option.some.inj opens
    cases Option.some.inj closes
    exact ⟨on,rfl⟩
  intro one two room span other left right distinct same takes takes'
  rcases List.mem_append.mp left with old | added
  · rcases List.mem_append.mp right with old' | added'
    · exact own one two room span other old old' distinct same takes takes'
    · cases List.mem_singleton.mp added'
      obtain ⟨here,rfl⟩ := new takes'
      exact free one old same room span here takes
  · cases List.mem_singleton.mp added
    obtain ⟨here,rfl⟩ := new takes
    rcases List.mem_append.mp right with old' | added'
    · exact fun met => free two old' same.symm room other here takes' met.symm
    · cases List.mem_singleton.mp added'
      exact absurd rfl distinct

-- The rows of the horizon were looked at against everything on their rooms.
theorem Sows.own {rows : List DayFields} (sown : Sows db rows next) (own : OwnApart db)
    (free : ∀ fields ∈ rows, fields.resourceId ≠ none → ∀ other, OnRoom db fields.resourceId other → ¬ Meets (daySpan other) (fieldsSpan fields))
    (apart : rows.Pairwise ApartFields) : OwnApart next := by
  induction sown with
  | done => exact own
  | skip _ ih => exact ih own (fun f m => free f (by simp [m])) (List.pairwise_cons.mp apart).2
  | write _ _ ih =>
    obtain ⟨clear,apart⟩ := List.pairwise_cons.mp apart
    refine ih (own.written ?_) ?_ apart
    · intro row stored _ room span here takes
      obtain ⟨dated,there,rfl,rfl⟩ := takes_onRoom stored takes
      exact free _ (List.mem_cons_self ..) (by rw [here]; exact Option.some_ne_none room) dated (here.symm ▸ there)
    · intro later member roomed other here met
      rcases onRoom_write here with old | ⟨room,_,span⟩
      · exact free later (by simp [member]) roomed other old met
      · rw [span] at met
        exact clear later member room.symm (room ▸ roomed) met

theorem OwnApart.materialized (own : OwnApart db) (settings : LedgerSettings) (cycleId : Option Nat) :
    OwnApart (materializeHorizon cal db settings cycleId).1 := by
  unfold materializeHorizon
  dsimp only
  split
  · exact own
  · have ranged : ∀ fields ∈ (horizonMissing cal db (horizonWindow db settings).1 (horizonWindow db settings).2 cycleId).map
        (horizonFields db (horizonWindow db settings).1 (horizonWindow db settings).2),
        (horizonWindow db settings).1 ≤ fields.targetDate ∧ fields.targetDate ≤ (horizonWindow db settings).2 := by
      intro fields member
      obtain ⟨item,listed,rfl⟩ := List.mem_map.mp member
      obtain ⟨_,low,high,_⟩ := mem_horizonMissing.mp listed
      exact ⟨low,high⟩
    obtain ⟨_,apart,free⟩ := @withoutOverlaps_free db _ _ _ ranged
    exact (batches_sow settings _ db).own own free apart

end ChronosLedger
