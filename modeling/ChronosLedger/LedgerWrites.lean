import ChronosLedger.TimetableMoves

namespace ChronosLedger
open Spans

variable {cal : Recurrence}

theorem onRoom_write {db : Database} {fields : DayFields} {room : Option Nat} {other : DatedDay}
    (here : OnRoom (writeDay db fields) room other) : OnRoom db room other ∨
      room = fields.resourceId ∧ other.row.masterSlotId = some fields.masterSlotId ∧ daySpan other = fieldsSpan fields := by
  obtain ⟨stored,dated⟩ := here
  rcases List.mem_append.mp stored with old | new
  · exact .inl ⟨old,dated⟩
  · have same := List.mem_singleton.mp new
    obtain ⟨on,opens,closes,_⟩ := datedDay_parts.mp dated
    rw [same] at on opens closes
    refine .inr ⟨on.symm,by rw [same]; rfl,?_⟩
    rw [daySpan,same,← Option.some.inj opens,← Option.some.inj closes]
    rfl

-- Nothing but the slot's own days takes the window the new day would have.
def RoomFree (db : Database) (fields : DayFields) : Prop :=
  fields.resourceId ≠ none → ∀ other, OnRoom db fields.resourceId other → other.row.masterSlotId ≠ some fields.masterSlotId →
    ¬ Meets (daySpan other) (fieldsSpan fields)

theorem takenBy_free {db : Database} {fields : DayFields} (free : takenBy db fields = []) : RoomFree db fields := by
  intro roomed other here apart met
  unfold takenBy at free
  rw [if_neg (by simpa using roomed)] at free
  have near := meets_near met
  have none := List.filterMap_eq_nil_iff.mp free other
    (mem_datedDays.mpr ⟨here.1,by omega,by simp,here.2⟩)
  rw [if_neg (by omega)] at none
  split at none
  · rename_i own
    exact apart own.2
  · rw [if_pos (by rw [bounds_dayInterval]; exact met)] at none
    cases none

theorem takenBy_exact {db : Database} {fields : DayFields} : takenBy db fields = [] ↔ RoomFree db fields := by
  refine ⟨takenBy_free,fun free => ?_⟩
  unfold takenBy
  split
  · rfl
  · rename_i roomed
    refine List.filterMap_eq_nil_iff.mpr (fun other member => ?_)
    obtain ⟨stored,_,_,dated⟩ := mem_datedDays.mp member
    split
    · rfl
    · split
      · rfl
      · rename_i apart
        refine if_neg (fun met => free (by simpa using roomed) other ⟨stored,dated⟩ (fun own => apart ⟨rfl,own⟩) ?_)
        rwa [bounds_dayInterval] at met

-- A day of the timetable: what a slot in service puts on one of its dates.
def FromSlot (cal : Recurrence) (db : Database) (fields : DayFields) : Prop :=
  ∃ slot day state, fields = dayFields slot day state ∧ SlotOn cal db slot day

theorem write_moves {db : Database} {fields : DayFields} (planned : FromSlot cal db fields)
    (absent : hasDay db fields.masterSlotId fields.targetDate = false) (free : RoomFree db fields) :
    TimetableMove cal db (writeDay db fields) := by
  obtain ⟨slot,day,state,rfl,on⟩ := planned
  exact .write on absent free

-- Days offered in order, of which each is written or passed over.
inductive Sows : Database → List DayFields → Database → Prop where
  | done {db : Database} : Sows db [] db
  | skip {db next : Database} {fields : DayFields} {rest : List DayFields} (later : Sows db rest next) : Sows db (fields :: rest) next
  | write {db next : Database} {fields : DayFields} {rest : List DayFields}
      (absent : hasDay db fields.masterSlotId fields.targetDate = false) (later : Sows (writeDay db fields) rest next) :
      Sows db (fields :: rest) next

theorem Sows.append {db middle next : Database} {one two : List DayFields} (first : Sows db one middle) (second : Sows middle two next) :
    Sows db (one ++ two) next := by
  induction first with
  | done => exact second
  | skip _ ih => exact .skip (ih second)
  | write absent _ ih => exact .write absent (ih second)

theorem insertDays_sows (rows : List DayFields) (db : Database) : Sows db rows (insertDays db rows).1 := by
  induction rows generalizing db with
  | nil => exact .done
  | cons fields rest ih =>
    change Sows db (fields :: rest) (insertDays (insertDay db fields).1 rest).1
    unfold insertDay
    split
    · exact .skip (ih db)
    · split
      · exact .skip (ih db)
      · rename_i absent
        exact .write (by simpa using absent) (ih _)

theorem hasDay_write (db : Database) (fields : DayFields) (slotId : Nat) (day : Int) :
    hasDay (writeDay db fields) slotId day = (hasDay db slotId day || decide (fields.masterSlotId = slotId ∧ fields.targetDate = day)) := by
  simp [hasDay,writeDay,dayRow]

theorem foldl_sows (batch : List DayFields) (db : Database)
    (absent : ∀ fields ∈ batch, hasDay db fields.masterSlotId fields.targetDate = false)
    (distinct : batch.Pairwise (fun a b => ¬ sameDay a b)) : Sows db batch (batch.foldl writeDay db) := by
  induction batch generalizing db with
  | nil => exact .done
  | cons fields rest ih =>
    obtain ⟨apart,distinct⟩ := List.pairwise_cons.mp distinct
    refine .write (absent fields (by simp)) (ih _ (fun other member => ?_) distinct)
    rw [hasDay_write,absent other (by simp [member])]
    have different := apart other member
    simpa [sameDay] using different

theorem writeBatches_sows (batches : List (List DayFields)) (db : Database) : Sows db batches.flatten (writeBatches db batches).1 := by
  induction batches generalizing db with
  | nil => exact .done
  | cons batch rest ih =>
    change Sows db (batch :: rest).flatten (writeBatches (writeBatch db batch).1 rest).1
    unfold writeBatch
    rw [List.flatten_cons]
    split
    · rename_i whole
      exact (foldl_sows batch db whole.1 whole.2).append (ih _)
    · exact (insertDays_sows batch db).append (ih _)

theorem drop_flatten (size count : Nat) (rows : List DayFields) (enough : rows.length ≤ count*size) :
    ((List.range count).map (fun n => (rows.drop (n*size)).take size)).flatten = rows := by
  induction count generalizing rows with
  | zero =>
    have none : rows = [] := List.length_eq_zero_iff.mp (by omega)
    simp [none]
  | succ count ih =>
    rw [List.range_succ_eq_map,List.map_cons,List.flatten_cons,List.map_map]
    have later := ih (rows.drop size) (by rw [List.length_drop,Nat.succ_mul] at *; omega)
    have same : ((fun n => (rows.drop (n*size)).take size) ∘ Nat.succ) = fun n => ((rows.drop size).drop (n*size)).take size := by
      funext n
      simp only [Function.comp_apply,List.drop_drop,Nat.succ_mul]
      rw [Nat.add_comm]
    rw [same,later,Nat.zero_mul,List.drop_zero,List.take_append_drop]

-- Cut into batches and put together again, the rows are the rows.
theorem batchesOf_flatten {size : Nat} (positive : 1 ≤ size) (rows : List DayFields) : (batchesOf size rows).flatten = rows := by
  apply drop_flatten
  have whole := Nat.div_add_mod (rows.length+size-1) size
  have less := Nat.mod_lt (rows.length+size-1) positive
  rw [Nat.mul_comm]
  omega

def ApartFields (one two : DayFields) : Prop :=
  one.resourceId = two.resourceId → one.resourceId ≠ none → ¬ Meets (fieldsSpan one) (fieldsSpan two)

-- Days that are free of the ledger and of one another can be sown in order.
theorem Sows.moves {db next : Database} {rows : List DayFields} (sown : Sows db rows next) (planned : ∀ fields ∈ rows, FromSlot cal db fields)
    (free : ∀ fields ∈ rows, RoomFree db fields) (apart : rows.Pairwise ApartFields) : TimetableMoves cal db next := by
  induction sown with
  | done => exact .refl
  | skip _ ih =>
    exact ih (fun f m => planned f (by simp [m])) (fun f m => free f (by simp [m])) (List.pairwise_cons.mp apart).2
  | write absent _ ih =>
    obtain ⟨clear,apart⟩ := List.pairwise_cons.mp apart
    refine .head (write_moves (planned _ (by simp)) absent (free _ (by simp))) (ih (fun f m => planned f (by simp [m])) ?_ apart)
    intro later member roomed other here different met
    rcases onRoom_write here with old | ⟨room,_,span⟩
    · exact free later (by simp [member]) roomed other old different met
    · rw [span] at met
      exact clear later member room.symm (room ▸ roomed) met

theorem mem_horizonMissing {db : Database} {first last : Int} {cycleId : Option Nat} {item : Int × StructuralMasterSlot} :
    item ∈ horizonMissing cal db first last cycleId ↔ (∃ booked, Planned cal db booked item.1 ∧ booked.slot = item.2 ∧
      ∀ id ∈ cycleId, booked.cycle.id = id) ∧ first ≤ item.1 ∧ item.1 ≤ last ∧
      (some item.2.id,item.1) ∉ horizonHave db first last cycleId := by
  simp only [horizonMissing,horizonSlots,List.mem_insertionSort,List.mem_flatMap,List.mem_filterMap,List.mem_filter,
    mem_occurrences,decide_eq_true_eq,Planned,within]
  constructor
  · rintro ⟨booked,⟨live,opens,closes,asked⟩,day,⟨falls,low,high⟩,listed⟩
    split at listed
    · cases listed
    · rename_i absent
      cases Option.some.inj listed
      exact ⟨⟨booked,⟨live,falls,by omega,by omega⟩,rfl,asked⟩,by omega,by omega,absent⟩
  · rintro ⟨⟨booked,⟨live,falls,opens,closes⟩,same,asked⟩,low,high,absent⟩
    refine ⟨booked,⟨live,by omega,by omega,asked⟩,item.1,⟨falls,by omega,by omega⟩,?_⟩
    rw [same,if_neg absent]

theorem mem_seatedDays {db : Database} {first last : Int} {rooms : List Nat} {seat : Nat × (Int × Int)} :
    seat ∈ seatedDays db first last rooms ↔ seat.1 ∈ rooms ∧ ∃ other, OnRoom db (some seat.1) other ∧
      first-1 ≤ other.row.targetDate ∧ other.row.targetDate ≤ last+1 ∧ seat.2 = daySpan other := by
  simp only [seatedDays,List.mem_filterMap,List.mem_filter,decide_eq_true_eq,OnRoom]
  constructor
  · rintro ⟨row,⟨stored,low,high⟩,seated⟩
    split at seated
    · rename_i room start finish here opens closes
      split at seated
      · rename_i asked
        cases Option.some.inj seated
        have dated : datedDay db (some room) row = some ⟨row,start,finish,(db.activity? row.activityId).map Activity.activityCode⟩ :=
          datedDay_parts.mpr ⟨here,opens,closes,rfl,rfl⟩
        exact ⟨asked,⟨row,start,finish,_⟩,⟨stored,dated⟩,low,high,rfl⟩
      · cases seated
    · cases seated
  · rintro ⟨asked,other,⟨stored,dated⟩,low,high,span⟩
    obtain ⟨here,opens,closes,_⟩ := datedDay_parts.mp dated
    refine ⟨other.row,⟨stored,low,high⟩,?_⟩
    obtain ⟨room,window⟩ := seat
    simp only at asked here span
    simp [here,opens,closes,asked,span,daySpan]

-- What is seated meets nothing seated before it, of the ledger or of the rows.
theorem seatDays_apart (rows : List DayFields) (held : Seated) :
    (seatDays held rows).Sublist rows ∧ (seatDays held rows).Pairwise ApartFields ∧
      ∀ fields ∈ seatDays held rows, ∀ room, fields.resourceId = some room → ∀ seat ∈ held, seat.1 = room →
        ¬ Meets seat.2 (fieldsSpan fields) := by
  induction rows generalizing held with
  | nil => exact ⟨.slnil,.nil,by simp [seatDays]⟩
  | cons fields rest ih =>
    unfold seatDays
    split
    · rename_i unroomed
      obtain ⟨part,apart,free⟩ := ih held
      refine ⟨part.cons_cons _,List.pairwise_cons.mpr ⟨fun other _ same roomed => absurd unroomed roomed,apart⟩,?_⟩
      intro other member room roomed
      rcases List.mem_cons.mp member with rfl | later
      · rw [unroomed] at roomed
        cases roomed
      · exact free other later room roomed
    · rename_i room roomed
      split
      · obtain ⟨part,apart,free⟩ := ih held
        exact ⟨part.cons _,apart,free⟩
      · rename_i unseated
        simp only [List.any_eq_true,decide_eq_true_eq,not_exists,not_and] at unseated
        obtain ⟨part,apart,free⟩ := ih (held ++ [(room,fieldsSpan fields)])
        refine ⟨part.cons_cons _,List.pairwise_cons.mpr ⟨?_,apart⟩,?_⟩
        · intro other member same _
          exact free other member room (same ▸ roomed) (room,fieldsSpan fields) (by simp) rfl
        · intro other member there placed seat taken same
          rcases List.mem_cons.mp member with rfl | later
          · rw [roomed] at placed
            cases Option.some.inj placed
            exact unseated seat taken same
          · exact free other later there placed seat (by simp [taken]) same

theorem withoutOverlaps_free {db : Database} {rows : List DayFields} {first last : Int}
    (ranged : ∀ fields ∈ rows, first ≤ fields.targetDate ∧ fields.targetDate ≤ last) :
    (withoutOverlaps db rows first last).Sublist rows ∧ (withoutOverlaps db rows first last).Pairwise ApartFields ∧
      ∀ fields ∈ withoutOverlaps db rows first last, fields.resourceId ≠ none → ∀ other, OnRoom db fields.resourceId other →
        ¬ Meets (daySpan other) (fieldsSpan fields) := by
  obtain ⟨part,apart,free⟩ := seatDays_apart rows (seatedDays db first last (rows.filterMap DayFields.resourceId))
  refine ⟨part,apart,?_⟩
  intro fields member roomed other here met
  obtain ⟨room,placed⟩ := Option.ne_none_iff_exists'.mp roomed
  rw [placed] at here
  have near := meets_near met
  have range := ranged fields (part.subset member)
  have asked : room ∈ rows.filterMap DayFields.resourceId := List.mem_filterMap.mpr ⟨fields,part.subset member,placed⟩
  have seat : (room,daySpan other) ∈ seatedDays db first last (rows.filterMap DayFields.resourceId) :=
    mem_seatedDays.mpr ⟨asked,other,here,by omega,by omega,rfl⟩
  exact free fields member room placed _ seat rfl met

theorem batches_sow (settings : LedgerSettings) (rows : List DayFields) (db : Database) :
    Sows db rows (writeBatches db (batchesOf settings.batchSize rows)).1 := by
  have sown := writeBatches_sows (batchesOf settings.batchSize rows) db
  rwa [batchesOf_flatten settings.batches] at sown

theorem materializeHorizon_moves (db : Database) (settings : LedgerSettings) (cycleId : Option Nat) :
    TimetableMoves cal db (materializeHorizon cal db settings cycleId).1 := by
  unfold materializeHorizon
  dsimp only
  split
  · exact .refl
  · have each : ∀ fields ∈ (horizonMissing cal db (horizonWindow db settings).1 (horizonWindow db settings).2 cycleId).map
        (horizonFields db (horizonWindow db settings).1 (horizonWindow db settings).2), FromSlot cal db fields ∧
        (horizonWindow db settings).1 ≤ fields.targetDate ∧ fields.targetDate ≤ (horizonWindow db settings).2 := by
      intro fields member
      obtain ⟨item,listed,rfl⟩ := List.mem_map.mp member
      obtain ⟨⟨booked,planned,same,_⟩,low,high,_⟩ := mem_horizonMissing.mp listed
      exact ⟨⟨item.2,item.1,_,rfl,same ▸ planned.slotOn⟩,low,high⟩
    obtain ⟨part,apart,free⟩ := @withoutOverlaps_free db _ _ _ (fun fields member => (each fields member).2)
    exact (batches_sow settings _ db).moves (fun fields member => (each fields (part.subset member)).1)
      (fun fields member roomed other here _ => free fields member roomed other here) apart

theorem insertDay_moves {db : Database} {fields : DayFields} (planned : FromSlot cal db fields) :
    TimetableMoves cal db (insertDay db fields).1 := by
  unfold insertDay
  split
  · exact .refl
  · rename_i free
    split
    · exact .refl
    · rename_i absent
      exact .single (write_moves planned (by simpa using absent) (takenBy_free (by simpa using free)))

theorem insertDay_slots (db : Database) (fields : DayFields) {slot : StructuralMasterSlot} {day : Int} :
    SlotOn cal (insertDay db fields).1 slot day ↔ SlotOn cal db slot day := by
  unfold insertDay
  split
  · rfl
  · split <;> rfl

theorem generateSlots_moves (targetDate : Int) (slots : List BookedSlot) (db : Database)
    (planned : ∀ booked ∈ slots, SlotOn cal db booked.slot targetDate) :
    TimetableMoves cal db (generateSlots targetDate db slots).1 := by
  induction slots generalizing db with
  | nil => exact .refl
  | cons booked rest ih =>
    have tail : ∀ other ∈ rest, SlotOn cal db other.slot targetDate := fun other member => planned other (by simp [member])
    unfold generateSlots
    split
    · exact ih db tail
    · refine (insertDay_moves ⟨booked.slot,targetDate,_,rfl,planned booked (by simp)⟩).trans (ih _ ?_)
      exact fun other member => (insertDay_slots db _).mpr (tail other member)

theorem generate_planned {db : Database} {targetDate : Int} : ∀ booked ∈ (candidates db targetDate).filter (fun booked =>
    occursOn cal booked.slot.rrule booked.slot.dtstart targetDate), Planned cal db booked targetDate := by
  intro booked member
  obtain ⟨listed,falls⟩ := List.mem_filter.mp member
  obtain ⟨live,bounded⟩ := List.mem_filter.mp ((List.mem_insertionSort _).mp listed)
  exact ⟨live,(occursOn_exact cal).mp falls,bounded⟩

theorem generate_moves (db : Database) (targetDate : Int) : TimetableMoves cal db (generateDailyLedgerEntries cal db targetDate).1 :=
  generateSlots_moves targetDate _ db (fun booked member => (generate_planned booked member).slotOn)

end ChronosLedger
