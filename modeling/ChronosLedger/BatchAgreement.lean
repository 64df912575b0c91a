import ChronosLedger.HorizonJobs
import ChronosLedger.Library.FirstCome
import Mathlib.Data.List.Pairwise

namespace ChronosLedger
open Spans

variable {cal : Recurrence} {db : Database}

def writeAll (db : Database) (rows : List DayFields) : Database := rows.foldl writeDay db

@[simp] theorem writeAll_cons (db : Database) (fields : DayFields) (rest : List DayFields) :
    writeAll db (fields :: rest) = writeAll (writeDay db fields) rest := rfl

theorem writeAll_ledger (rows : List DayFields) (db : Database) :
    (writeAll db rows).ledger.map unnumbered = db.ledger.map unnumbered ++ rows.map (dayRow 0) := by
  induction rows generalizing db with
  | nil => exact (List.append_nil _).symm
  | cons fields rest ih =>
    rw [writeAll_cons,ih]
    simp [writeDay,unnumbered,dayRow]

theorem writeAll_snoc (db : Database) (rows : List DayFields) (fields : DayFields) :
    writeAll db (rows ++ [fields]) = writeDay (writeAll db rows) fields := by
  simp [writeAll]

theorem writeAll_frame (rows : List DayFields) (db : Database) : ∃ ledger, writeAll db rows = {db with ledger := ledger} := by
  induction rows generalizing db with
  | nil => exact ⟨db.ledger,rfl⟩
  | cons fields rest ih => exact ih (writeDay db fields)

theorem hasDay_writeAll (rows : List DayFields) (db : Database) (slotId : Nat) (day : Int) : hasDay (writeAll db rows) slotId day = true ↔
    hasDay db slotId day = true ∨ ∃ fields ∈ rows, fields.masterSlotId = slotId ∧ fields.targetDate = day := by
  induction rows generalizing db with
  | nil => simp [writeAll]
  | cons fields rest ih =>
    have later := ih (writeDay db fields)
    rw [hasDay_write,Bool.or_eq_true,decide_eq_true_eq,or_assoc] at later
    simpa using later

-- Two days on one room at once.
def Clashes (one two : DayFields) : Prop := two.resourceId ≠ none ∧ one.resourceId = two.resourceId ∧ Meets (fieldsSpan one) (fieldsSpan two)

instance : DecidableRel Clashes := fun _ _ => inferInstanceAs (Decidable (_ ∧ _ ∧ _))

-- Another slot's day is on the room at the window.
def Foreign (db : Database) (fields : DayFields) : Prop := takenBy db fields ≠ []

instance : DecidablePred (Foreign db) := fun _ => inferInstanceAs (Decidable (_ ≠ _))

-- No other day of the slot is on the room at the window.
def OwnClear (db : Database) (fields : DayFields) : Prop :=
  ∀ room ∈ fields.resourceId, ∀ day ∈ ownDays db fields.masterSlotId room, ¬ Meets (daySpan day) (fieldsSpan fields)

instance : DecidablePred (OwnClear db) := fun fields => by unfold OwnClear; infer_instance

theorem foreign_exact {fields : DayFields} : Foreign db fields ↔ ¬ RoomFree db fields := not_congr takenBy_exact

theorem roomFree_write {fields other : DayFields} : RoomFree (writeDay db fields) other ↔
    RoomFree db other ∧ (fields.masterSlotId ≠ other.masterSlotId → ¬ Clashes fields other) := by
  constructor
  · intro free
    refine ⟨roomFree_earlier free,?_⟩
    rintro different ⟨roomed,same,met⟩
    obtain ⟨room,placed⟩ := Option.ne_none_iff_exists'.mp roomed
    obtain ⟨day,here,row,span⟩ := @takes_onRoom (writeDay db fields) room _ _ (List.mem_append_right _ (List.mem_singleton_self _))
      ⟨same.trans placed,_,_,rfl,rfl,rfl⟩
    refine free roomed day (placed ▸ here) ?_ (span ▸ met)
    rw [row]
    exact fun own => different (Option.some.inj own)
  · rintro ⟨free,apart⟩ roomed day here different met
    rcases onRoom_write here with old | ⟨room,of,span⟩
    · exact free roomed day old different met
    · exact apart (fun own => different (own ▸ of)) ⟨roomed,room.symm,span ▸ met⟩

theorem roomFree_writeAll (rows : List DayFields) (db : Database) (other : DayFields) : RoomFree (writeAll db rows) other ↔
    RoomFree db other ∧ ∀ fields ∈ rows, fields.masterSlotId ≠ other.masterSlotId → ¬ Clashes fields other := by
  induction rows generalizing db with
  | nil => simp [writeAll]
  | cons fields rest ih =>
    have later := ih (writeDay db fields)
    rw [roomFree_write,and_assoc] at later
    simpa using later

-- The plans of one slot have different dates, and none runs into the next.
def Staggered (one two : DayFields) : Prop :=
  one.masterSlotId = two.masterSlotId → one.targetDate ≠ two.targetDate ∧ ¬ Meets (fieldsSpan one) (fieldsSpan two)

-- Offered one at a time, the days that go in are first come, first served.
theorem offerAll_pick (rows taken : List DayFields) (absent : ∀ fields ∈ rows, hasDay db fields.masterSlotId fields.targetDate = false)
    (apart : (taken ++ rows).Pairwise Staggered) :
    offerAll (writeAll db taken) rows = writeAll db (taken ++ FirstCome.pick (Foreign db) Clashes taken rows) := by
  induction rows generalizing taken with
  | nil => simp [offerAll,FirstCome.pick]
  | cons fields rest ih =>
    obtain ⟨_,_,across⟩ := List.pairwise_append.mp apart
    have before : ∀ earlier ∈ taken, Staggered earlier fields := fun earlier member => across earlier member fields (List.mem_cons_self ..)
    have later := fun other (member : other ∈ rest) => absent other (List.mem_cons_of_mem _ member)
    have out : takenBy (writeAll db taken) fields ≠ [] ↔ Foreign db fields ∨ ∃ earlier ∈ taken, Clashes earlier fields := by
      rw [Ne,takenBy_exact,roomFree_writeAll,foreign_exact,not_and_or]
      refine or_congr_right ⟨fun some_ => ?_,fun ⟨earlier,member,clash⟩ all => ?_⟩
      · by_contra none
        exact some_ (fun earlier member _ clash => none ⟨earlier,member,clash⟩)
      · exact all earlier member (fun same => (before earlier member same).2 clash.2.2) clash
    have key : hasDay (writeAll db taken) fields.masterSlotId fields.targetDate = false := by
      rw [← Bool.not_eq_true,hasDay_writeAll]
      rintro (there | ⟨earlier,member,same,date⟩)
      · rw [absent fields (List.mem_cons_self ..)] at there
        cases there
      · exact (before earlier member same).1 date
    change offerAll (insertDay (writeAll db taken) fields).1 rest = _
    unfold insertDay FirstCome.pick
    split
    · rename_i refused
      rw [if_pos (out.mp refused)]
      exact ih taken later (apart.sublist (List.Sublist.append_left (List.sublist_cons_self ..) _))
    · rename_i free
      rw [if_neg (fun no => free (out.mpr no)),key,if_neg Bool.false_ne_true,← writeAll_snoc]
      have rest_ := ih (taken ++ [fields]) later (by simpa using apart)
      simpa using rest_

def seatOf (fields : DayFields) : Option (Nat × (Int × Int)) := fields.resourceId.map (fun room => (room,fieldsSpan fields))

-- A seat that is held already.
def Sat (held : Seated) (fields : DayFields) : Prop := ∃ seat ∈ held, some seat.1 = fields.resourceId ∧ Meets seat.2 (fieldsSpan fields)

instance (held : Seated) : DecidablePred (Sat held) := fun fields => by unfold Sat; infer_instance

theorem sat_append {held : Seated} {taken : List DayFields} {fields : DayFields} : Sat (held ++ taken.filterMap seatOf) fields ↔
    Sat held fields ∨ ∃ earlier ∈ taken, Clashes earlier fields := by
  simp only [Sat,List.mem_append,or_and_right,exists_or]
  refine or_congr_right ⟨?_,?_⟩
  · rintro ⟨seat,member,on,met⟩
    obtain ⟨earlier,there,seated⟩ := List.mem_filterMap.mp member
    obtain ⟨room,placed,rfl⟩ := Option.map_eq_some_iff.mp seated
    exact ⟨earlier,there,by rw [← on]; simp,placed.trans on,met⟩
  · rintro ⟨earlier,there,roomed,same,met⟩
    obtain ⟨room,placed⟩ := Option.ne_none_iff_exists'.mp roomed
    exact ⟨(room,fieldsSpan earlier),List.mem_filterMap.mpr ⟨earlier,there,by simp [seatOf,same,placed]⟩,placed.symm,met⟩

-- The sweep of a whole batch is first come, first served too.
theorem seatDays_pick (rows taken : List DayFields) (held : Seated) :
    seatDays (held ++ taken.filterMap seatOf) rows = FirstCome.pick (Sat held) Clashes taken rows := by
  induction rows generalizing taken with
  | nil => rfl
  | cons fields rest ih =>
    have later := ih (taken ++ [fields])
    unfold seatDays FirstCome.pick
    split
    · rename_i unroomed
      have free : ¬ (Sat held fields ∨ ∃ earlier ∈ taken, Clashes earlier fields) := by
        rintro (⟨_,_,on,_⟩ | ⟨_,_,roomed,_⟩)
        · rw [unroomed] at on
          cases on
        · exact roomed unroomed
      rw [if_neg free,← later]
      simp [seatOf,unroomed]
    · rename_i room roomed
      have same : ((held ++ taken.filterMap seatOf).any (fun seat => seat.1 = room ∧ Meets seat.2 (fieldsSpan fields)) = true) ↔
          Sat held fields ∨ ∃ earlier ∈ taken, Clashes earlier fields := by
        rw [← sat_append]
        simp only [List.any_eq_true,decide_eq_true_eq,Sat,roomed,Option.some.injEq]
      by_cases out : Sat held fields ∨ ∃ earlier ∈ taken, Clashes earlier fields
      · rw [if_pos out,if_pos (same.mpr out),ih taken]
      · rw [if_neg out,if_neg (fun no => out (same.mp no)),← later]
        simp [seatOf,roomed]

theorem mem_ownDays {slotId room : Nat} {day : DatedDay} :
    day ∈ ownDays db slotId room ↔ OnRoom db (some room) day ∧ day.row.masterSlotId = some slotId := by
  simp only [ownDays,List.mem_filterMap,List.mem_filter,decide_eq_true_eq,OnRoom]
  constructor
  · rintro ⟨row,⟨stored,of⟩,dated⟩
    obtain ⟨_,_,_,rfl,_⟩ := datedDay_parts.mp dated
    exact ⟨⟨stored,dated⟩,of⟩
  · rintro ⟨⟨stored,dated⟩,of⟩
    exact ⟨day.row,⟨stored,of⟩,dated⟩

-- The sweep leaves out nobody's days, not the slot's own.
theorem sat_exact {rows : List DayFields} {fields : DayFields} {first last : Int} (listed : fields ∈ rows)
    (range : first ≤ fields.targetDate ∧ fields.targetDate ≤ last) :
    Sat (seatedDays db first last (rows.filterMap DayFields.resourceId)) fields ↔ Foreign db fields ∨ ¬ OwnClear db fields := by
  constructor
  · rintro ⟨seat,member,on,met⟩
    obtain ⟨_,other,here,_,_,span⟩ := mem_seatedDays.mp member
    rw [span] at met
    by_cases own : other.row.masterSlotId = some fields.masterSlotId
    · exact .inr (fun clear => clear seat.1 on.symm other (mem_ownDays.mpr ⟨here,own⟩) met)
    · refine .inl (foreign_exact.mpr (fun free => free (by simp [← on]) other (on ▸ here) own met))
  · intro across
    have held : ∃ room other, fields.resourceId = some room ∧ OnRoom db (some room) other ∧ Meets (daySpan other) (fieldsSpan fields) := by
      rcases across with foreign | own
      · by_contra none
        refine foreign_exact.mp foreign (fun roomed other here _ met => ?_)
        obtain ⟨room,placed⟩ := Option.ne_none_iff_exists'.mp roomed
        exact none ⟨room,other,placed,placed ▸ here,met⟩
      · by_contra none
        exact own (fun room placed other there met => none ⟨room,other,placed,(mem_ownDays.mp there).1,met⟩)
    obtain ⟨room,other,placed,here,met⟩ := held
    have near := meets_near met
    exact ⟨(room,daySpan other),mem_seatedDays.mpr ⟨List.mem_filterMap.mpr ⟨fields,listed,placed⟩,other,here,by omega,by omega,rfl⟩,
      placed.symm,met⟩

theorem withoutOverlaps_pick {rows : List DayFields} {first last : Int}
    (ranged : ∀ fields ∈ rows, first ≤ fields.targetDate ∧ fields.targetDate ≤ last) :
    withoutOverlaps db rows first last = FirstCome.pick (fun fields => Foreign db fields ∨ ¬ OwnClear db fields) Clashes [] rows := by
  have swept := seatDays_pick rows [] (seatedDays db first last (rows.filterMap DayFields.resourceId))
  rw [List.filterMap_nil,List.append_nil] at swept
  unfold withoutOverlaps
  rw [swept]
  exact FirstCome.pick_congr (fun fields listed => sat_exact listed (ranged fields listed))

theorem writeBatches_whole (batches : List (List DayFields)) (db : Database)
    (absent : ∀ fields ∈ batches.flatten, hasDay db fields.masterSlotId fields.targetDate = false)
    (distinct : batches.flatten.Pairwise Staggered) : writeBatches db batches = (writeAll db batches.flatten,batches.flatten) := by
  induction batches generalizing db with
  | nil => rfl
  | cons batch rest ih =>
    rw [List.flatten_cons] at absent distinct
    obtain ⟨within_,later,across⟩ := List.pairwise_append.mp distinct
    have whole : writeBatch db batch = (writeAll db batch,batch) := by
      unfold writeBatch
      rw [if_pos ⟨fun fields member => absent fields (List.mem_append_left _ member),
        within_.imp (fun apart same => (apart same.1).1 same.2)⟩]
      rfl
    have next : ∀ fields ∈ rest.flatten, hasDay (writeAll db batch) fields.masterSlotId fields.targetDate = false := by
      intro fields member
      rw [← Bool.not_eq_true,hasDay_writeAll]
      rintro (there | ⟨earlier,written,same,date⟩)
      · rw [absent fields (List.mem_append_right _ member)] at there
        cases there
      · exact (across earlier written fields member same).1 date
    unfold writeBatches
    rw [whole]
    dsimp only
    rw [ih _ next later,List.flatten_cons,writeAll,writeAll,writeAll,List.foldl_append]

-- The days of a range that slots in service have and the ledger does not.
def missingDays (cal : Recurrence) (db : Database) (first last : Int) : List DayFields :=
  (missingDates cal db first last).map (horizonFields db first last)

theorem horizonFields_due {first last : Int} {item : Int × StructuralMasterSlot} (range : first ≤ item.1 ∧ item.1 ≤ last) :
    horizonFields db first last item = dueFields db item.1 item.2 := by
  unfold horizonFields dueFields approvedLeave leaveSpans
  rw [List.any_map,List.any_filter]
  congr 2
  refine List.any_congr rfl (fun log => ?_)
  rw [Bool.eq_iff_iff]
  simp only [Function.comp_apply,Bool.and_eq_true,decide_eq_true_eq]
  constructor
  · rintro ⟨⟨lead,_,_,approved⟩,low,high⟩
    exact ⟨lead,low,high,approved⟩
  · rintro ⟨lead,low,high,approved⟩
    exact ⟨⟨lead,by omega,by omega,approved⟩,low,high⟩

theorem mem_missingDays {first last : Int} {fields : DayFields} (member : fields ∈ missingDays cal db first last) :
    (first ≤ fields.targetDate ∧ fields.targetDate ≤ last) ∧ hasDay db fields.masterSlotId fields.targetDate = false := by
  obtain ⟨item,listed,rfl⟩ := List.mem_map.mp member
  obtain ⟨range,_,absent⟩ := mem_missingDates.mp listed
  exact ⟨range,absent⟩

-- Dates of stored slots taken in their order make days of which two of one slot
-- are apart.
theorem sorted_staggered (slots : (db.slots.map StructuralMasterSlot.id).Nodup) {first last : Int} {items : List (Int × StructuralMasterSlot)}
    (sorted : items.Pairwise Sooner) (stored : ∀ item ∈ items, item.2 ∈ db.slots) :
    (items.map (horizonFields db first last)).Pairwise Staggered := by
  refine List.pairwise_map.mpr (List.Pairwise.imp_of_mem ?_ sorted)
  intro one two left right sooner same
  have equal : one.2 = two.2 := same_of_key slots (stored one left) (stored two right) same
  have dates : one.1 ≠ two.1 := by
    unfold Sooner at sooner
    rw [equal] at sooner
    omega
  refine ⟨dates,?_⟩
  change ¬ Meets (windowSpan one.1 one.2.timeWindowStart one.2.timeWindowEnd) (windowSpan two.1 two.2.timeWindowStart two.2.timeWindowEnd)
  rw [equal]
  exact span_apart dates _ _

theorem missingDays_staggered (slots : (db.slots.map StructuralMasterSlot.id).Nodup) (first last : Int) :
    (missingDays cal db first last).Pairwise Staggered := by
  refine sorted_staggered slots (missingDates_sorted slots first last) ?_
  intro item listed
  obtain ⟨_,⟨booked,planned,of⟩,_⟩ := mem_missingDates.mp listed
  exact of ▸ planned.slotOn.1

theorem dailyJobs_missing (first last : Int) : dailyJobs cal db first last = offerAll db (missingDays cal db first last) := by
  rw [dailyJobs_offers,offerAll_missing _ db db (fun _ _ there => there)]
  congr 1
  unfold missingDays missingDates
  rw [List.filter_flatMap,List.map_flatMap]
  refine List.flatMap_congr (fun day member => ?_)
  rw [List.filter_map,List.map_map]
  refine List.map_congr_left (fun booked _ => ?_)
  exact (@horizonFields_due db first last (day,booked.slot) (mem_datesBetween.mp member)).symm

-- Who gets the room of each missing day: whoever asks first, by date and then by
-- the age of the slot, unless another slot's day has it.
def granted (cal : Recurrence) (db : Database) (first last : Int) : List DayFields :=
  FirstCome.pick (Foreign db) Clashes [] (missingDays cal db first last)

theorem dailyJobs_granted (slots : (db.slots.map StructuralMasterSlot.id).Nodup) (first last : Int) :
    dailyJobs cal db first last = writeAll db (granted cal db first last) := by
  have picked := @offerAll_pick db (missingDays cal db first last) [] (fun fields member => (mem_missingDays member).2)
    (missingDays_staggered slots first last)
  rw [dailyJobs_missing]
  exact picked

-- What the batch writes of the same days.
def seated (cal : Recurrence) (db : Database) (first last : Int) : List DayFields :=
  FirstCome.pick (fun fields => Foreign db fields ∨ ¬ OwnClear db fields) Clashes [] (missingDays cal db first last)

theorem materializeHorizon_seated (slots : (db.slots.map StructuralMasterSlot.id).Nodup) (settings : LedgerSettings) :
    materializeHorizon cal db settings none = (writeAll db (seated cal db (horizonWindow db settings).1 (horizonWindow db settings).2),
      seated cal db (horizonWindow db settings).1 (horizonWindow db settings).2) := by
  unfold materializeHorizon
  generalize horizonWindow db settings = window
  obtain ⟨first,last⟩ := window
  dsimp only
  rw [horizonMissing_exact slots]
  have swept : withoutOverlaps db (missingDays cal db first last) first last = seated cal db first last :=
    withoutOverlaps_pick (fun fields member => (mem_missingDays member).1)
  split
  · rename_i none
    have empty : missingDays cal db first last = [] := by rw [missingDays,none,List.map_nil]
    rw [seated,empty]
    rfl
  · change writeBatches db (batchesOf settings.batchSize (withoutOverlaps db (missingDays cal db first last) first last)) = _
    rw [swept]
    have part : (seated cal db first last).Sublist (missingDays cal db first last) := FirstCome.pick_sublist _ _
    have whole := writeBatches_whole (batchesOf settings.batchSize (seated cal db first last)) db
    rw [batchesOf_flatten settings.batches] at whole
    exact whole (fun fields member => (mem_missingDays (part.subset member)).2) ((missingDays_staggered slots first last).sublist part)

instance : Std.Symm Staggered := ⟨fun _ _ apart same => ⟨(apart same.symm).1.symm,fun met => (apart same.symm).2 met.symm⟩⟩

theorem missingDays_write {first last : Int} {rows : List DayFields} {fields : DayFields}
    (member : fields ∈ missingDays cal (writeAll db rows) first last) : fields ∈ missingDays cal db first last ∧ fields ∉ rows := by
  obtain ⟨_,absent⟩ := mem_missingDays member
  obtain ⟨item,listed,same⟩ := List.mem_map.mp member
  obtain ⟨range,due,gone⟩ := mem_missingDates.mp listed
  have before : hasDay db item.2.id item.1 = false := by
    rw [← Bool.not_eq_true]
    intro there
    rw [(hasDay_writeAll rows db _ _).mpr (.inl there)] at gone
    cases gone
  obtain ⟨ledger,framed⟩ := writeAll_frame rows db
  rw [framed] at due same
  refine ⟨List.mem_map.mpr ⟨item,mem_missingDates.mpr ⟨range,due,before⟩,same⟩,fun written => ?_⟩
  rw [(hasDay_writeAll rows db _ _).mpr (.inr ⟨fields,written,rfl,rfl⟩)] at absent
  cases absent

theorem onRoom_writeAll (rows : List DayFields) {room : Option Nat} {day : DatedDay} (here : OnRoom db room day) :
    OnRoom (writeAll db rows) room day := by
  induction rows generalizing db with
  | nil => exact here
  | cons fields rest ih =>
    exact @ih (writeDay db fields) ⟨List.mem_append_left _ here.1,here.2⟩

-- What the first run leaves out, the second finds taken.
theorem seated_again (slots : (db.slots.map StructuralMasterSlot.id).Nodup) (first last : Int) :
    seated cal (writeAll db (seated cal db first last)) first last = [] := by
  refine FirstCome.pick_none (fun fields member => .inl ?_)
  obtain ⟨listed,left⟩ := missingDays_write member
  have out := FirstCome.pick_left listed left
  rw [foreign_exact,roomFree_writeAll]
  rcases out with (foreign | own) | ⟨other,taken,clash⟩
  · exact .inl (fun both => foreign_exact.mp foreign both.1)
  · exact .inr (fun clear => own (fun room placed day there => clear room placed day
      (mem_ownDays.mpr ⟨onRoom_writeAll _ (mem_ownDays.mp there).1,(mem_ownDays.mp there).2⟩)))
  · have earlier : other ∈ missingDays cal db first last := (FirstCome.pick_sublist _ _).subset taken
    have apart := (missingDays_staggered slots first last).forall earlier listed (fun same => left (same ▸ taken))
    exact .inl (fun both => both.2 other taken (fun same => (apart same).2 clash.2.2) clash)

theorem materialized_twice (slots : (db.slots.map StructuralMasterSlot.id).Nodup) (settings : LedgerSettings) :
    materializeHorizon cal (materializeHorizon cal db settings none).1 settings none = ((materializeHorizon cal db settings none).1,[]) := by
  rw [materializeHorizon_seated slots]
  dsimp only
  generalize written : seated cal db (horizonWindow db settings).1 (horizonWindow db settings).2 = rows
  obtain ⟨ledger,framed⟩ := writeAll_frame rows db
  have again := @seated_again cal db slots (horizonWindow db settings).1 (horizonWindow db settings).2
  have second := @materializeHorizon_seated cal {db with ledger := ledger} slots settings
  have window : horizonWindow {db with ledger := ledger} settings = horizonWindow db settings := rfl
  rw [written,framed] at again
  rw [window,again] at second
  rw [framed,second]
  rfl

theorem dayRow_injective : Function.Injective (dayRow 0) := by
  intro one two same
  cases one
  cases two
  simpa [dayRow] using same

-- A class from ten at night to six, moved on the day of its first night. The
-- night stays; nothing is written for the next day yet.
def eveningClass (start finish : Time) : List Operation :=
  [.createCycle ⟨"term",90,130,true,autumn_bounds⟩ registrar,.createActivity ⟨"MATH","Mathematics","SCI",1⟩ registrar,
    .createMasterSlot ⟨"FREQ=DAILY",some 100,clock 22 0,clock 6 0,1,none,"A",ten_at_night_to_six⟩ registrar,.advanceClock 1,
    .updateMasterSlot 1 ⟨none,none,some start,some finish,none,none⟩ registrar]

def eveningKept (start finish : Time) : Database := performAll plainRuntime (staffed 100) (eveningClass start finish)

end ChronosLedger
