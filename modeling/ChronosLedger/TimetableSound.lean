import ChronosLedger.NothingMeets

namespace ChronosLedger
open Spans

variable {cal : Recurrence} {db next : Database}

-- What meets a window of the timetable is a slot no day stands in for, or a day.
theorem timetable_clear {room : Nat} {window : Int × Int} (clear : ¬ TimetableMeets cal db (some room) window) :
    (∀ slot d, SlotOn cal db slot d → slot.resourceId = some room → ¬ Settled db room d slot.id → ¬ Meets (slotSpan slot d) window) ∧
      ∀ row span, row ∈ db.ledger → Takes row room span → ¬ Meets span window := by
  constructor
  · intro slot d on here unsettled met
    obtain ⟨booked,rfl,planned⟩ := on.planned
    exact clear (.inl ⟨booked,d,planned,here,fun stands => unsettled (standsIn_settled.mp stands),met⟩)
  · intro row span stored takes met
    obtain ⟨other,here,rfl,rfl⟩ := takes_onRoom stored takes
    exact clear (.inr ⟨other,here,met⟩)

-- The holds that count may change where the timetable was looked at for them.
theorem nothing_held (nothing : NothingMeets cal db) (today : next.orgToday = db.orgToday) (slots : next.slots = db.slots)
    (activities : next.activities = db.activities) (cycles : next.cycles = db.cycles) (ledger : next.ledger = db.ledger)
    (counts : ∀ room held, Counts next room held →
      (∃ old, Counts db room old ∧ heldSpan held = heldSpan old) ∨ ¬ TimetableMeets cal db (some room) (heldSpan held)) :
    NothingMeets cal next := by
  have on : ∀ slot d, SlotOn cal next slot d ↔ SlotOn cal db slot d := slotOn_frame activities cycles slots
  have settled : ∀ room d id, Settled next room d id ↔ Settled db room d id := fun room d id => by unfold Settled; rw [ledger]
  refine ⟨?_,?_,?_,?_,?_⟩
  · intro one two d e room left right
    rw [on] at left right
    rw [today]
    exact nothing.slots one two d e room left right
  · intro slot d row room span left stored
    rw [on] at left
    rw [ledger] at stored
    rw [today]
    exact nothing.slotDays slot d row room span left stored
  · intro one two room span other left right
    rw [ledger] at left right
    exact nothing.days one two room span other left right
  · intro slot d room held left here unsettled ahead counted
    rw [on] at left
    rw [settled] at unsettled
    rw [today] at ahead
    rcases counts room held counted with ⟨old,was,span⟩ | clear
    · rw [span]
      exact nothing.slotHolds slot d room old left here unsettled ahead was
    · exact (timetable_clear clear).1 slot d left here unsettled
  · intro row room span held stored takes ahead counted
    rw [ledger] at stored
    rw [today] at ahead
    rcases counts room held counted with ⟨old,was,equal⟩ | clear
    · rw [equal]
      exact nothing.dayHolds row room span old stored takes ahead was
    · exact (timetable_clear clear).2 row span stored takes

theorem NothingMeets.held (nothing : NothingMeets cal db) (move : HoldMove cal db next) : NothingMeets cal next := by
  cases move with
  | book bookable =>
    rename_i resource row
    refine nothing_held nothing rfl rfl rfl rfl rfl (fun room held counted => ?_)
    rcases List.mem_append.mp counted.stored with old | new
    · exact .inl ⟨held,⟨old,counted.on,counted.taken,counted.counted,counted.ahead⟩,rfl⟩
    · cases List.mem_singleton.mp new
      have same : room = resource.id := counted.on.symm.trans bookable.on
      exact .inr (same ▸ bookable.timetable (bookable.mode ▸ counted.counted))
  | release gone =>
    refine nothing_held nothing rfl rfl rfl rfl rfl (fun room held counted => ?_)
    obtain ⟨old,there,equal⟩ := List.mem_map.mp counted.stored
    split at equal
    · have taken := counted.taken
      rw [← equal] at taken
      cases taken
    · subst equal
      exact .inl ⟨old,⟨there,counted.on,counted.taken,counted.counted,counted.ahead⟩,rfl⟩
  | refit fits =>
    rename_i resource updated
    refine nothing_held nothing rfl rfl rfl rfl rfl (fun room held counted => ?_)
    obtain ⟨old,there,equal⟩ := List.mem_map.mp counted.stored
    by_cases written : old ∈ (if updated.mode = resource.mode then [] else toCome db resource.id)
    · rw [if_pos written] at equal
      split at written
      · cases written
      · rename_i moved
        have place := (mem_heldOn.mp (mem_toCome.mp written).1).2.1
        have counts := counted.counted
        have on := counted.on
        rw [← equal] at counts on
        have same : room = resource.id := on.symm.trans place
        rw [← equal,same]
        exact .inr (fits.timetable moved counts old written)
    · rw [if_neg written] at equal
      subst equal
      exact .inl ⟨old,⟨there,counted.on,counted.taken,counted.counted,counted.ahead⟩,rfl⟩
  | advance days =>
    have later : ∀ {d : Int}, (ChronosLedger.advance db days).orgToday ≤ d → db.orgToday ≤ d := fun {d} le => by
      simp only [ChronosLedger.advance] at le
      omega
    have beyond : ∀ {d : Int}, (ChronosLedger.advance db days).orgToday < d → db.orgToday < d := fun {d} less => by
      simp only [ChronosLedger.advance] at less
      omega
    have counts : ∀ {room held}, Counts (ChronosLedger.advance db days) room held → Counts db room held := fun c =>
      ⟨c.stored,c.on,c.taken,c.counted,later c.ahead⟩
    refine ⟨?_,?_,nothing.days,?_,?_⟩
    · intro one two d e room left right different here there first second
      exact nothing.slots one two d e room left right different here there (beyond first) (beyond second)
    · intro slot d row room span on stored here takes apart first second
      exact nothing.slotDays slot d row room span on stored here takes apart (beyond first) (beyond second)
    · intro slot d room held on here unsettled ahead counted
      exact nothing.slotHolds slot d room held on here unsettled (later ahead) (counts counted)
    · intro row room span held stored takes ahead counted
      exact nothing.dayHolds row room span held stored takes (later ahead) (counts counted)

-- What a written day takes is what its slot would take on the date.
theorem written_takes {slot : StructuralMasterSlot} {day : Int} {state : DynamicState} {row : DailyLedger} {room : Nat} {span : Int × Int}
    (member : row ∈ (writeDay db (dayFields slot day state)).ledger) (takes : Takes row room span) : row ∈ db.ledger ∨
      row.masterSlotId = some slot.id ∧ row.targetDate = day ∧ slot.resourceId = some room ∧ span = slotSpan slot day := by
  rcases List.mem_append.mp member with old | new
  · exact .inl old
  · obtain ⟨here,start,finish,opens,closes,equal⟩ := takes
    rw [List.mem_singleton.mp new] at here opens closes equal ⊢
    cases Option.some.inj opens
    cases Option.some.inj closes
    exact .inr ⟨rfl,rfl,here,equal⟩

theorem days_written (days : DaysCross db) {slot : StructuralMasterSlot} {day : Int} {state : DynamicState}
    (free : slot.resourceId ≠ none → ∀ other, OnRoom db slot.resourceId other → other.row.masterSlotId ≠ some slot.id →
      ¬ Meets (daySpan other) (slotSpan slot day)) : DaysCross (writeDay db (dayFields slot day state)) := by
  have clear : ∀ {other room span}, other ∈ db.ledger → Takes other room span → slot.resourceId = some room →
      other.masterSlotId ≠ some slot.id → ¬ Meets span (slotSpan slot day) := by
    intro other room span stored takes here apart
    obtain ⟨dated,there,rfl,rfl⟩ := takes_onRoom stored takes
    exact free (by rw [here]; exact Option.some_ne_none room) dated (here.symm ▸ there) apart
  intro one two room span other left right takes takes' apart
  rcases written_takes left takes with old | ⟨of,_,here,rfl⟩
  · rcases written_takes right takes' with old' | ⟨of',_,here',rfl⟩
    · exact days one two room span other old old' takes takes' apart
    · exact clear old takes here' (fun own => apart (own.trans of'.symm))
  · rcases written_takes right takes' with old' | ⟨of',_⟩
    · exact fun met => clear old' takes' here (fun own => apart (of.trans own.symm)) met.symm
    · exact absurd (of.trans of'.symm) apart

-- A day written for a slot takes what the slot would have taken, and the room
-- was looked at for it.
theorem NothingMeets.written (nothing : NothingMeets cal db) {slot : StructuralMasterSlot} {day : Int} {state : DynamicState}
    (on : SlotOn cal db slot day) (absent : hasDay db slot.id day = false)
    (free : slot.resourceId ≠ none → ∀ other, OnRoom db slot.resourceId other → other.row.masterSlotId ≠ some slot.id →
      ¬ Meets (daySpan other) (slotSpan slot day)) : NothingMeets cal (writeDay db (dayFields slot day state)) := by
  have unsettled : ∀ room, ¬ Settled db room day slot.id := by
    rintro room ⟨other,stored,_,date,of⟩
    have none := List.any_eq_false.mp absent other stored
    simp [date,of] at none
  have counts : ∀ {room held}, Counts (writeDay db (dayFields slot day state)) room held → Counts db room held := fun c =>
    ⟨c.stored,c.on,c.taken,c.counted,c.ahead⟩
  refine ⟨nothing.slots,?_,?_,?_,?_⟩
  · intro other d day' room span on' stored here takes apart first second
    rcases written_takes stored takes with old | ⟨of,date,there,rfl⟩
    · exact nothing.slotDays other d day' room span on' old here takes apart first second
    · rw [date] at second
      exact nothing.slots other slot d day room on' on (fun same => apart (same ▸ of)) here there first second
  · exact days_written nothing.days free
  · intro other d room held on' here unsettled' ahead counted
    refine nothing.slotHolds other d room held on' here (fun settled => unsettled' ?_) ahead (counts counted)
    obtain ⟨old,stored,rest⟩ := settled
    exact ⟨old,List.mem_append_left _ stored,rest⟩
  · intro other room span held stored takes ahead counted
    rcases written_takes stored takes with old | ⟨_,date,here,rfl⟩
    · exact nothing.dayHolds other room span held old takes ahead (counts counted)
    · rw [date] at ahead
      exact nothing.slotHolds slot day room held on here (unsettled room) ahead (counts counted)

-- A day that stays after a deletion is where it was, and loses the slot if it
-- was that one's.
theorem removed_takes {slotId : Nat} (idle : idleAhead db slotId) {row : DailyLedger} {room : Nat} {span : Int × Int}
    (member : row ∈ (ChronosLedger.remove db slotId).ledger) (takes : Takes row room span) :
    ∃ old ∈ db.ledger, Takes old room span ∧ old.id = row.id ∧ old.targetDate = row.targetDate ∧
      (old.masterSlotId = row.masterSlotId ∧ old.masterSlotId ≠ some slotId ∨ old.masterSlotId = some slotId ∧ row.masterSlotId = none) := by
  unfold ChronosLedger.remove at member
  rw [dropDays_idle idle] at member
  obtain ⟨old,there,rfl⟩ := List.mem_map.mp member
  by_cases own : old.masterSlotId = some slotId
  · rw [detachDay,if_pos own] at takes ⊢
    exact ⟨old,(List.mem_filter.mp there).1,takes,rfl,rfl,.inr ⟨own,rfl⟩⟩
  · rw [detachDay,if_neg own] at takes ⊢
    exact ⟨old,(List.mem_filter.mp there).1,takes,rfl,rfl,.inl ⟨rfl,own⟩⟩

theorem days_removed (days : DaysCross db) {slotId : Nat} (idle : idleAhead db slotId) : DaysCross (ChronosLedger.remove db slotId) := by
  intro one two room span other left right takes takes' apart
  obtain ⟨old,there,was,_,_,of⟩ := removed_takes idle left takes
  obtain ⟨old',there',was',_,_,of'⟩ := removed_takes idle right takes'
  refine days old old' room span other there there' was was' ?_
  rcases of with ⟨same,own⟩ | ⟨own,none⟩ <;> rcases of' with ⟨same',own'⟩ | ⟨own',none'⟩
  · rw [same,same']; exact apart
  · rw [own']; exact own
  · rw [own]; exact Ne.symm own'
  · exact absurd (none.trans none'.symm) apart

theorem NothingMeets.removed (nothing : NothingMeets cal db) (removal : SlotRemoval db next) :
    NothingMeets cal next := by
  cases removal with
  | remove idle =>
    rename_i slotId
    have apart := days_removed nothing.days idle
    have back := @removed_takes db slotId idle
    unfold ChronosLedger.remove at apart back ⊢
    rw [dropDays_idle idle] at apart back ⊢
    have live : ∀ {slot : StructuralMasterSlot}, slot ∈ db.slots.filter (fun s => s.id ≠ slotId) → slot ∈ db.slots ∧ slot.id ≠ slotId :=
      fun member => ⟨(List.mem_filter.mp member).1,by simpa using (List.mem_filter.mp member).2⟩
    refine ⟨?_,?_,?_,?_,?_⟩
    · intro one two d e room left right
      exact nothing.slots one two d e room ⟨(live left.1).1,left.2⟩ ⟨(live right.1).1,right.2⟩
    · intro slot d row room span on stored here takes apart first second
      obtain ⟨old,there,takes',_,date,of⟩ := back stored takes
      refine nothing.slotDays slot d old room span ⟨(live on.1).1,on.2⟩ there here takes' ?_ first (date ▸ second)
      rcases of with ⟨same,_⟩ | ⟨own,_⟩
      · rw [same]; exact apart
      · rw [own]; exact fun equal => (live on.1).2 (Option.some.inj equal).symm
    · exact apart
    · intro slot d room held on here unsettled ahead counted
      refine nothing.slotHolds slot d room held ⟨(live on.1).1,on.2⟩ here (fun settled => unsettled ?_) ahead
        ⟨counted.stored,counted.on,counted.taken,counted.counted,counted.ahead⟩
      obtain ⟨row,stored,takes,date,of⟩ := settled
      have other : row.masterSlotId ≠ some slotId := fun own => (live on.1).2 (Option.some.inj (of.symm.trans own))
      refine ⟨row,List.mem_map.mpr ⟨row,List.mem_filter.mpr ⟨stored,by simp [plannedFor,other]⟩,?_⟩,takes,date,of⟩
      rw [detachDay,if_neg other]
    · intro row room span held stored takes ahead counted
      obtain ⟨old,there,takes',_,date,_⟩ := back stored takes
      exact nothing.dayHolds old room span held there takes' (date ▸ ahead)
        ⟨counted.stored,counted.on,counted.taken,counted.counted,counted.ahead⟩

-- The invariant of every run.
structure Sound (cal : Recurrence) (db : Database) : Prop where
  order : InOrder cal db
  fits : Fits db
  nothing : NothingMeets cal db

theorem Fits.frame (fits : Fits db) (today : db.orgToday = next.orgToday) (resources : next.resources = db.resources)
    (reservations : next.reservations = db.reservations) : Fits next := by
  have same : ∀ id, toCome next id = toCome db id := fun id => by simp only [toCome,heldOn,reservations,today]
  refine ⟨fun resource stored => ?_,fun resource stored => ?_⟩
  · rw [same]
    exact fits.mode resource (resources ▸ stored)
  · rw [same]
    exact fits.rules resource (resources ▸ stored)

-- A room nobody had heard of has no bookings.
theorem Fits.room (fits : Fits db) (order : InOrder cal db) {room : Resource} (fresh : room.id ∉ db.resources.map Resource.id) :
    Fits {db with resources := db.resources ++ [room]} := by
  have none : toCome {db with resources := db.resources ++ [room]} room.id = [] := by
    refine List.eq_nil_iff_forall_not_mem.mpr (fun held listed => fresh ?_)
    obtain ⟨stored,on,_⟩ := mem_heldOn.mp (mem_toCome.mp listed).1
    exact on ▸ order.rooms held stored
  refine ⟨fun resource stored => ?_,fun resource stored => ?_⟩
  · rcases List.mem_append.mp stored with old | new
    · exact fits.mode resource old
    · cases List.mem_singleton.mp new
      simp [none]
  · rcases List.mem_append.mp stored with old | new
    · exact fits.rules resource old
    · cases List.mem_singleton.mp new
      rw [none]
      exact ⟨fun _ => ⟨by simp,.nil⟩,fun _ i => by simp [Levels.load]⟩

-- A move books, writes a day of a slot, or reshapes the timetable.
inductive Shape (cal : Recurrence) (db next : Database) : Prop where
  | hold (move : HoldMove cal db next)
  | reshape (reshaped : Reshaped cal db next)
  | write {slot : StructuralMasterSlot} {day : Int} {state : DynamicState} (on : SlotOn cal db slot day)
      (absent : hasDay db slot.id day = false)
      (free : slot.resourceId ≠ none → ∀ other, OnRoom db slot.resourceId other → other.row.masterSlotId ≠ some slot.id →
        ¬ Meets (daySpan other) (slotSpan slot day)) (same : next = writeDay db (dayFields slot day state))

theorem TimetableMove.shape (order : InOrder cal db) (move : TimetableMove cal db next) : Shape cal db next := by
  have grown : ∀ {next}, next.slots = db.slots → (∀ slot ∈ db.slots, Anchored next slot ∧ ∀ cycle, InService next slot cycle ↔
      InService db slot cycle) → ∀ slot d, SlotOn cal next slot d → SlotOn cal db slot d := fun slots same => slotOn_back slots same
  cases move with
  | hold move => exact .hold move
  | write on absent free => exact .write on absent free rfl
  | aside same =>
    exact .reshape (reshaped_still same.today same.reservations
      (fun slot d on => (slotOn_frame same.activities same.cycles same.slots slot d).mp on) same.ledger)
  | room fresh => exact .reshape (reshaped_still rfl rfl (fun _ _ on => on) rfl)
  | cycle =>
    refine .reshape (reshaped_still rfl rfl (grown rfl (fun slot stored => ?_)) rfl)
    exact inService_grow (order.anchored slot stored) (fun a known => ⟨a,known,rfl,rfl⟩) (fun _ _ known => find_append known)
  | activity fresh =>
    refine .reshape (reshaped_still rfl rfl (grown rfl (fun slot stored => ?_)) rfl)
    exact inService_grow (order.anchored slot stored) (fun a known => ⟨a,find_append known,rfl,rfl⟩) (fun _ _ known => known)
  | retitle known cycle retired =>
    refine .reshape (reshaped_still rfl rfl (grown rfl (fun slot stored => ?_)) rfl)
    exact inService_grow (order.anchored slot stored) (fun a there => setActivity_grow known cycle retired there)
      (fun _ _ known => known)
  | slot fresh anchored clear => exact .reshape (reshaped_slot clear)
  | relocate stored same activity retired rule start clear =>
    exact .reshape (reshaped_relocate order stored same activity retired rule start clear)
  | restart stored same activity retired idle clear => exact .reshape (reshaped_restart same activity retired idle clear)
  | windDown winds => exact .reshape (reshaped_windDown order winds)
  | «open» known up clear => exact .reshape (reshaped_open clear)
  | mark kept noted => exact .reshape (reshaped_still rfl rfl (fun _ _ on => on) rfl)

theorem TimetableMove.fits (fits : Fits db) (order : InOrder cal db) (move : TimetableMove cal db next) : Fits next := by
  cases move with
  | hold move => exact fits.preserved order.toKeyed move
  | aside same => exact fits.frame same.today.symm same.resources same.reservations
  | room fresh => exact fits.room order fresh
  | windDown winds => exact fits.frame winds.today.symm winds.resources winds.reservations
  | _ => exact fits.frame rfl rfl rfl

theorem HoldMove.ledger (move : HoldMove cal db next) : next.ledger = db.ledger := by
  cases move <;> rfl

-- The days of two slots stay apart whatever else is on the timetable.
theorem DaysCross.preserved (days : DaysCross db) (order : InOrder cal db) (move : TimetableMove cal db next) : DaysCross next := by
  rcases move.shape order with held | reshaped | ⟨_,_,free,rfl⟩
  · unfold DaysCross
    rw [held.ledger]
    exact days
  · exact reshaped_days days reshaped (order.preserved move)
  · exact days_written days free

theorem Sound.preserved (sound : Sound cal db) (move : TimetableMove cal db next) : Sound cal next := by
  refine ⟨sound.order.preserved move,move.fits sound.fits sound.order,?_⟩
  rcases move.shape sound.order with held | reshaped | ⟨on,absent,free,rfl⟩
  · exact sound.nothing.held held
  · exact nothing_reshaped sound.nothing reshaped (sound.order.preserved move)
  · exact sound.nothing.written on absent free

theorem Sound.removed (sound : Sound cal db) (removal : SlotRemoval db next) : Sound cal next := by
  refine ⟨sound.order.removed removal,?_,sound.nothing.removed removal⟩
  cases removal with
  | remove idle => exact sound.fits.frame rfl rfl rfl

theorem Sound.path (sound : Sound cal db) (path : Path cal db next) : Sound cal next := by
  have moved : ∀ {a b}, Sound cal a → TimetableMoves cal a b → Sound cal b := by
    intro a b first moves
    induction moves with
    | refl => exact first
    | tail _ move ih => exact ih.preserved move
  have cleared : ∀ {a b}, Sound cal a → SlotRemovals a b → Sound cal b := by
    intro a b first removals
    induction removals with
    | refl => exact first
    | tail _ removal ih => exact ih.removed removal
  obtain ⟨before,after,moves,removals,last,_⟩ := path
  exact moved (cleared (moved sound moves) removals) last

variable {rt : Runtime}

-- An empty schedule may have people, activities, cycles and rooms.
theorem empty_sound {start : Database} (empty : EmptySchedule start) (resources : (start.resources.map Resource.id).Nodup)
    (activities : (start.activities.map Activity.id).Nodup) : Sound rt.cal start := by
  have none : ∀ id, toCome start id = [] := by simp [toCome,heldOn,empty.reservations]
  have off : ∀ slot d, ¬ SlotOn rt.cal start slot d := fun slot d on => by
    have stored := on.1
    rw [empty.slots] at stored
    cases stored
  refine ⟨⟨⟨⟨resources,by simp [empty.reservations]⟩,activities,by simp [empty.slots],by simp [empty.ledger]⟩,?_,?_,?_,?_,?_⟩,
    ⟨by simp [none],fun _ _ => ?_⟩,?_,?_,?_,?_,?_⟩
  · simp [empty.reservations]
  · simp [empty.slots]
  · simp [empty.ledger]
  · simp [empty.ledger]
  · simp [empty.ledger]
  · rw [none]
    exact ⟨fun _ => ⟨by simp,.nil⟩,fun _ i => by simp [Levels.load]⟩
  · exact fun one _ d _ _ left => absurd left (off one d)
  · exact fun slot d _ _ _ left => absurd left (off slot d)
  · simp [DaysCross,empty.ledger]
  · exact fun slot d _ _ left => absurd left (off slot d)
  · simp [empty.ledger]

theorem run_sound {start db : Database} (sound : Sound rt.cal start) (path : Runs.Reached (Performs rt) start db) : Sound rt.cal db := by
  refine path.invariant (Sound rt.cal) sound ?_
  intro before op after held taken
  have now : after = perform rt before op := taken
  subst now
  exact held.path (perform_path held.order.toKeys).1

end ChronosLedger
