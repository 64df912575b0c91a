import Mathlib.Data.List.Sort
import ChronosLedger.OwnDays

namespace ChronosLedger
open Spans

variable {cal : Recurrence} {reading : Reading} {before db next : Database}

-- The slot a line of the file asks for, if there is one like it.
def lineSlot (reading : Reading) (db : Database) (cycleId : Nat) (row : CsvRow) : Option Nat :=
  match rowWindow reading row with
  | .error _ => none
  | .ok window =>
    (db.activities.find? (fun a => a.cycleId = cycleId ∧ a.activityCode = row.activityCode)).bind (fun offering =>
      (matchedSlot db offering.id (weeklyRule window.day) window.start).map StructuralMasterSlot.id)

def lastLine (reading : Reading) (db : Database) (cycleId : Nat) (rows : List CsvRow) (slotId : Nat) : Option CsvRow :=
  (rows.filter (fun row => lineSlot reading db cycleId row = some slotId)).getLast?

theorem lastLine_snoc (cycleId : Nat) (rows : List CsvRow) (row : CsvRow) (slotId : Nat) :
    lastLine reading db cycleId (rows ++ [row]) slotId =
      if lineSlot reading db cycleId row = some slotId then some row else lastLine reading db cycleId rows slotId := by
  unfold lastLine
  rw [List.filter_append]
  split
  · rename_i asks
    rw [List.filter_cons_of_pos (by simpa using asks),List.filter_nil,List.getLast?_concat]
  · rename_i other
    rw [List.filter_cons_of_neg (by simpa using other),List.filter_nil,List.append_nil]

-- The match is the oldest slot of the offering with the rule and the start.
theorem matchedSlot_exact (distinct : (db.slots.map StructuralMasterSlot.id).Nodup) {activityId : Nat} {rule : String} {start : Time}
    {slot : StructuralMasterSlot} : matchedSlot db activityId rule start = some slot ↔ slot ∈ db.slots ∧
      (slot.activityId = activityId ∧ slot.rrule = rule ∧ slot.timeWindowStart = start) ∧ ∀ other ∈ db.slots,
        other.activityId = activityId ∧ other.rrule = rule ∧ other.timeWindowStart = start → slot.id ≤ other.id := by
  have sorted : (db.slots.insertionSort (fun a b => a.id ≤ b.id)).Pairwise (fun a b => a.id ≤ b.id) := List.pairwise_insertionSort _ _
  have least : ∀ {slot}, matchedSlot db activityId rule start = some slot → ∀ other ∈ db.slots,
      other.activityId = activityId ∧ other.rrule = rule ∧ other.timeWindowStart = start → slot.id ≤ other.id := by
    intro slot matched other stored like
    obtain ⟨_,earlier,later,split,none⟩ := List.find?_eq_some_iff_append.mp matched
    have listed := (List.mem_insertionSort (fun a b : StructuralMasterSlot => a.id ≤ b.id)).mpr stored
    rw [split] at listed sorted
    rcases List.mem_append.mp listed with first | rest
    · have unlike := none other first
      simp [like] at unlike
    · rcases List.mem_cons.mp rest with rfl | after
      · exact le_refl _
      · exact List.rel_of_pairwise_cons (List.pairwise_append.mp sorted).2.1 after
  constructor
  · intro matched
    obtain ⟨stored,like⟩ := matchedSlot_stored matched
    exact ⟨stored,like,least matched⟩
  · rintro ⟨stored,like,first⟩
    cases found_ : matchedSlot db activityId rule start with
    | none =>
      have none := List.find?_eq_none.mp found_ slot ((List.mem_insertionSort _).mpr stored)
      simp [like] at none
    | some other =>
      obtain ⟨stored',like'⟩ := matchedSlot_stored found_
      exact congrArg some (same_of_key distinct stored' stored (Nat.le_antisymm (least found_ slot stored like) (first other stored' like')))

def offeringKey (activity : Activity) : Nat × Nat × String := (activity.id,activity.cycleId,activity.activityCode)
def slotKey (slot : StructuralMasterSlot) : Nat × Nat × String × Time := (slot.id,slot.activityId,slot.rrule,slot.timeWindowStart)

theorem offering_ids (activities : List Activity) : activities.map Activity.id = (activities.map offeringKey).map Prod.fst := by
  rw [List.map_map]
  rfl

theorem offering_find (db : Database) (cycleId : Nat) (code : String) :
    (db.activities.find? (fun a => a.cycleId = cycleId ∧ a.activityCode = code)).map Activity.id =
      ((db.activities.map offeringKey).find? (fun key => key.2 = (cycleId,code))).map Prod.fst := by
  rw [List.find?_map,Option.map_map]
  congr 2
  funext a
  simp only [Function.comp_apply,offeringKey,Prod.mk.injEq]

theorem setActivity_keys {offering titled : Activity} (distinct : (db.activities.map Activity.id).Nodup) (stored : offering ∈ db.activities)
    (same : offeringKey titled = offeringKey offering) : (setActivity db titled).activities.map offeringKey = db.activities.map offeringKey := by
  simp only [setActivity,List.map_map]
  apply List.map_congr_left
  intro a member
  simp only [Function.comp_apply]
  split
  · rename_i named
    have equal : a = offering := same_of_key distinct member stored (named.trans (congrArg Prod.fst same))
    rw [same,equal]
  · rfl

-- Where a slot that was on the timetable stands after some lines: as it was, or
-- as the last line that asked for it says.
def PlacedBy (reading : Reading) (before : Database) (old : StructuralMasterSlot) (line : Option CsvRow) (slot : StructuralMasterSlot) : Prop :=
  match line with
  | none => Alike old slot
  | some row => ∃ window room, rowWindow reading row = .ok window ∧ slot.timeWindowStart = window.start ∧
      slot.timeWindowEnd = window.finish ∧ slot.resourceId = some room ∧
      (room = (getOrCreateRoom reading.strip row.room before).1.id ∨ room ∉ before.resources.map Resource.id)

-- Between two lines, what is left of the database the file was read into.
structure Followed (reading : Reading) (before : Database) (cycleId : Nat) (lines : List CsvRow) (db : Database) : Prop where
  today : db.orgToday = before.orgToday
  ledger : db.ledger = before.ledger
  marks : db.marks = before.marks
  annotations : db.annotations = before.annotations
  rooms : ∃ made, db.resources = before.resources ++ made ∧ ∀ room ∈ made, room.id ∉ before.resources.map Resource.id
  offerings : ∃ made, db.activities.map offeringKey = before.activities.map offeringKey ++ made ∧
    ∀ key ∈ made, key.1 ∉ before.activities.map Activity.id
  kept : ∀ old ∈ before.slots, ∃ slot ∈ db.slots, slotKey slot = slotKey old
  slots : ∀ slot ∈ db.slots, (∃ old ∈ before.slots, slotKey old = slotKey slot) ∨ ∀ old ∈ before.slots, old.id < slot.id
  placed : ∀ slot ∈ db.slots, ∀ old ∈ before.slots, slot.id = old.id →
    PlacedBy reading before old (lastLine reading before cycleId lines old.id) slot

theorem followed_start (distinct : (before.slots.map StructuralMasterSlot.id).Nodup) (cycleId : Nat) :
    Followed reading before cycleId [] before where
  today := rfl
  ledger := rfl
  marks := rfl
  annotations := rfl
  rooms := ⟨[],by simp,by simp⟩
  offerings := ⟨[],by simp,by simp⟩
  kept := fun old stored => ⟨old,stored,rfl⟩
  slots := fun slot stored => .inl ⟨slot,stored,rfl⟩
  placed := fun slot stored old stored' same => by
    cases same_of_key distinct stored stored' same
    exact ⟨rfl,rfl,rfl,rfl⟩

-- The room a line names is the one it would have named at the start, or one
-- that was not on record then.
theorem followed_room (rooms : ∃ made, db.resources = before.resources ++ made ∧ ∀ room ∈ made, room.id ∉ before.resources.map Resource.id)
    (strip : String → String) (code : String) :
    ((getOrCreateRoom strip code db).1.id = (getOrCreateRoom strip code before).1.id ∨
      (getOrCreateRoom strip code db).1.id ∉ before.resources.map Resource.id) ∧
    ∃ made, (getOrCreateRoom strip code db).2.resources = before.resources ++ made ∧
      ∀ room ∈ made, room.id ∉ before.resources.map Resource.id := by
  obtain ⟨made,grown,fresh⟩ := rooms
  cases known : before.resources.find? (fun r => r.code = strip code) with
  | some existing =>
    have known' : db.resources.find? (fun r => r.code = strip code) = some existing := by
      rw [grown,List.find?_append,known]
      rfl
    simp only [getOrCreateRoom,known,known']
    exact ⟨.inl trivial,made,grown,fresh⟩
  | none =>
    cases found_ : db.resources.find? (fun r => r.code = strip code) with
    | some existing =>
      simp only [getOrCreateRoom,found_]
      refine ⟨.inr (fresh existing ?_),made,grown,fresh⟩
      rw [grown,List.find?_append,known,Option.none_or] at found_
      exact List.mem_of_find?_eq_some found_
    | none =>
      have new : nextId (db.resources.map Resource.id) ∉ before.resources.map Resource.id := by
        intro old
        have part : ∀ id ∈ before.resources.map Resource.id, id ∈ db.resources.map Resource.id := by
          rw [grown,List.map_append]
          exact fun _ there => List.mem_append_left _ there
        exact nextId_notMem _ (part _ old)
      simp only [getOrCreateRoom,found_]
      refine ⟨.inr new,made ++ [_],by rw [grown,List.append_assoc],fun room member => ?_⟩
      rcases List.mem_append.mp member with old | added
      · exact fresh room old
      · cases List.mem_singleton.mp added
        rw [← grown]
        exact new

-- The offering of a line, found or made.
theorem followed_offering {cycleId : Nat} {row : CsvRow} {offering : Activity}
    (offerings : ∃ made, db.activities.map offeringKey = before.activities.map offeringKey ++ made ∧
      ∀ key ∈ made, key.1 ∉ before.activities.map Activity.id)
    (distinct : (db.activities.map Activity.id).Nodup) (done : upsertOffering db cycleId row = .ok (next,offering)) :
    (∃ made, next.activities.map offeringKey = before.activities.map offeringKey ++ made ∧
      ∀ key ∈ made, key.1 ∉ before.activities.map Activity.id) ∧
    ∀ id, id ∈ before.activities.map Activity.id → (offering.id = id ↔
      (before.activities.find? (fun a => a.cycleId = cycleId ∧ a.activityCode = row.activityCode)).map Activity.id = some id) := by
  obtain ⟨made,grown,fresh⟩ := offerings
  have here := offering_find db cycleId row.activityCode
  rw [grown,List.find?_append,Option.map_or,← offering_find] at here
  have late : ∀ id, id ∈ before.activities.map Activity.id → (made.find? (fun key => key.2 = (cycleId,row.activityCode))).map Prod.fst ≠ some id := by
    intro id old found_
    obtain ⟨key,listed,rfl⟩ := Option.map_eq_some_iff.mp found_
    exact fresh key (List.mem_of_find?_eq_some listed) old
  unfold upsertOffering at done
  split at done
  · rename_i absent
    cases done
    rw [absent,Option.map_none] at here
    obtain ⟨none,_⟩ := Option.or_eq_none_iff.mp here.symm
    have new : nextId (db.activities.map Activity.id) ∉ before.activities.map Activity.id := by
      intro old
      have part : ∀ id ∈ before.activities.map Activity.id, id ∈ db.activities.map Activity.id := by
        rw [offering_ids db.activities,grown,List.map_append,← offering_ids]
        exact fun _ there => List.mem_append_left _ there
      exact nextId_notMem _ (part _ old)
    refine ⟨⟨made ++ [_],by rw [List.map_append,grown,List.append_assoc]; rfl,fun key member => ?_⟩,fun id old => ?_⟩
    · rcases List.mem_append.mp member with older | added
      · exact fresh key older
      · cases List.mem_singleton.mp added
        exact new
    · rw [none]
      constructor
      · rintro rfl
        exact absurd old new
      · intro no
        cases no
  · rename_i existing present
    split at done
    · cases done
    · cases done
      rw [present,Option.map_some] at here
      refine ⟨⟨made,?_,fresh⟩,fun id old => ?_⟩
      · rw [← grown]
        exact setActivity_keys distinct (List.mem_of_find?_eq_some present) rfl
      · cases early : (before.activities.find? (fun a => a.cycleId = cycleId ∧ a.activityCode = row.activityCode)).map Activity.id with
        | none =>
          rw [early,Option.none_or] at here
          constructor
          · rintro rfl
            exact absurd here.symm (late _ old)
          · intro no
            cases no
        | some first =>
          rw [early,Option.some_or] at here
          exact ⟨fun same => congrArg some ((Option.some.inj here).symm.trans same),fun same => (Option.some.inj here).trans (Option.some.inj same)⟩

-- A line asks, at the start, for the slot it is matched with when it is read.
theorem followed_line {cycleId : Nat} {row : CsvRow} {window : RowWindow} {offering : Activity}
    (anchored : ∀ slot ∈ before.slots, Anchored before slot) (distinct : (before.slots.map StructuralMasterSlot.id).Nodup)
    (kept : ∀ old ∈ before.slots, ∃ slot ∈ db.slots, slotKey slot = slotKey old)
    (slots : ∀ slot ∈ db.slots, (∃ old ∈ before.slots, slotKey old = slotKey slot) ∨ ∀ old ∈ before.slots, old.id < slot.id)
    (now : (db.slots.map StructuralMasterSlot.id).Nodup) (read : rowWindow reading row = .ok window)
    (offered : ∀ id, id ∈ before.activities.map Activity.id → (offering.id = id ↔
      (before.activities.find? (fun a => a.cycleId = cycleId ∧ a.activityCode = row.activityCode)).map Activity.id = some id))
    {old : StructuralMasterSlot} (stored : old ∈ before.slots) : lineSlot reading before cycleId row = some old.id ↔
      ∃ slot, matchedSlot db offering.id (weeklyRule window.day) window.start = some slot ∧ slot.id = old.id := by
  have keyed : ∀ {one two : StructuralMasterSlot}, slotKey one = slotKey two →
      one.id = two.id ∧ one.activityId = two.activityId ∧ one.rrule = two.rrule ∧ one.timeWindowStart = two.timeWindowStart := by
    intro one two same
    simpa [slotKey] using same
  unfold lineSlot
  rw [read]
  dsimp only
  constructor
  · intro asks
    obtain ⟨activity,found_,matched⟩ := Option.bind_eq_some_iff.mp asks
    obtain ⟨slot,first,named⟩ := Option.map_eq_some_iff.mp matched
    obtain ⟨there,like,least⟩ := (matchedSlot_exact distinct).mp first
    cases same_of_key distinct there stored named
    have same : offering.id = activity.id := (offered activity.id (List.mem_map_of_mem (List.mem_of_find?_eq_some found_))).mpr (by rw [found_]; rfl)
    obtain ⟨slot,present,key⟩ := kept old stored
    obtain ⟨id,activity_,rule,start⟩ := keyed key
    refine ⟨slot,(matchedSlot_exact now).mpr ⟨present,⟨by rw [activity_,same]; exact like.1,rule.trans like.2.1,start.trans like.2.2⟩,?_⟩,id⟩
    intro other listed like'
    rcases slots other listed with ⟨earlier,was,key'⟩ | later
    · obtain ⟨id',activity',rule',start'⟩ := keyed key'
      rw [id,← id']
      exact least earlier was ⟨by rw [activity',like'.1,same],rule'.trans like'.2.1,start'.trans like'.2.2⟩
    · rw [id]
      exact Nat.le_of_lt (later old stored)
  · rintro ⟨slot,matched,named⟩
    obtain ⟨present,like,least⟩ := (matchedSlot_exact now).mp matched
    rcases slots slot present with ⟨earlier,was,key⟩ | later
    · obtain ⟨id,activity_,rule,start⟩ := keyed key
      cases same_of_key distinct was stored (id.trans named)
      obtain ⟨activity,_,planned,_⟩ := anchored old stored
      obtain ⟨there,named'⟩ := find_key planned
      have known : old.activityId ∈ before.activities.map Activity.id := named' ▸ List.mem_map_of_mem there
      have asked := (offered old.activityId known).mp (like.1.symm.trans activity_.symm)
      obtain ⟨asked,found_,same⟩ := Option.map_eq_some_iff.mp asked
      refine Option.bind_eq_some_iff.mpr ⟨asked,found_,Option.map_eq_some_iff.mpr ⟨old,?_,rfl⟩⟩
      refine (matchedSlot_exact distinct).mpr ⟨stored,⟨same.symm,rule.trans like.2.1,start.trans like.2.2⟩,?_⟩
      intro other listed like'
      obtain ⟨now',present',key'⟩ := kept other listed
      obtain ⟨id',activity',rule',start'⟩ := keyed key'
      have first := least now' present' ⟨by rw [activity',like'.1,same,activity_,like.1],rule'.trans like'.2.1,start'.trans like'.2.2⟩
      rw [id,← id']
      exact first
    · exact absurd named (Nat.ne_of_gt (later old stored))

theorem upsertOffering_frame {cycleId : Nat} {row : CsvRow} {offering : Activity} (done : upsertOffering db cycleId row = .ok (next,offering)) :
    ∃ activities, next = {db with activities := activities} := by
  unfold upsertOffering at done
  split at done
  · cases done
    exact ⟨_,rfl⟩
  · split at done
    · cases done
    · cases done
      exact ⟨_,rfl⟩

theorem enroll_frame (db : Database) (activityId : Nat) (memberId : String) :
    ∃ enrollments, enroll db activityId memberId = {db with enrollments := enrollments} := by
  unfold enroll
  split
  · exact ⟨db.enrollments,rfl⟩
  · exact ⟨_,rfl⟩

theorem importRow_followed {columns : List String} {cycle : PlanningCycle} {s after : ImportState} {row : CsvRow} {lines : List CsvRow}
    (anchored : ∀ slot ∈ before.slots, Anchored before slot) (distinct : (before.slots.map StructuralMasterSlot.id).Nodup)
    (importing : Importing cycle s.db s.corrected) (followed : Followed reading before cycle.id lines s.db)
    (done : importRow cal reading columns cycle s row = .ok after) : Followed reading before cycle.id (lines ++ [row]) after.db := by
  unfold importRow at done
  simp only [bind_parts] at done
  obtain ⟨_,_,middle,member,⟨db,offering⟩,offered,window,read,⟨final,slotId,changed⟩,slotted,kept⟩ := done
  obtain ⟨users,provisioned,rfl⟩ := upsertMember_parts member
  cases kept
  dsimp only at offered slotted ⊢
  obtain ⟨offerings,asked⟩ := @followed_offering before {s.db with users := users} db cycle.id row offering followed.offerings
    importing.keys.activities offered
  obtain ⟨activities,rfl⟩ := upsertOffering_frame offered
  obtain ⟨enrollments,enrolled⟩ := enroll_frame {s.db with users := users,activities := activities} offering.id row.memberId
  rw [enrolled] at slotted
  have now : (s.db.slots.map StructuralMasterSlot.id).Nodup := importing.keys.slots
  obtain ⟨room,made,roomed,rest⟩ := upsertSlot_parts slotted
  obtain ⟨resources,same⟩ := room_parts reading.strip row.room {s.db with users := users,activities := activities,enrollments := enrollments}
  have placed := @followed_room before {s.db with users := users,activities := activities,enrollments := enrollments} followed.rooms
    reading.strip row.room
  rw [roomed] at same placed
  dsimp only at same placed
  subst same
  have line : ∀ {old : StructuralMasterSlot}, old ∈ before.slots → (lineSlot reading before cycle.id row = some old.id ↔
      ∃ slot, matchedSlot {s.db with users := users,activities := activities,enrollments := enrollments} offering.id (weeklyRule window.day)
        window.start = some slot ∧ slot.id = old.id) := fun stored =>
    @followed_line reading before {s.db with users := users,activities := activities,enrollments := enrollments} cycle.id row window offering
      anchored distinct followed.kept followed.slots now read asked _ stored
  -- A slot the line did not ask for is where the lines before left it.
  have still : ∀ slot ∈ s.db.slots, ∀ old ∈ before.slots, slot.id = old.id → lineSlot reading before cycle.id row ≠ some old.id →
      PlacedBy reading before old (lastLine reading before cycle.id (lines ++ [row]) old.id) slot := by
    intro slot stored old stored' named other
    rw [lastLine_snoc,if_neg other]
    exact followed.placed slot stored old stored' named
  rcases rest with ⟨unmatched,dtstart,_,rfl,_⟩ | ⟨slot,matched,_,_,_,outcome⟩
  · have none : ∀ old ∈ before.slots, lineSlot reading before cycle.id row ≠ some old.id := by
      intro old stored asks
      obtain ⟨slot,matched,_⟩ := (line stored).mp asks
      rw [unmatched] at matched
      cases matched
    have later : ∀ old ∈ before.slots, old.id < nextId (s.db.slots.map StructuralMasterSlot.id) := by
      intro old stored
      obtain ⟨slot,present,key⟩ := followed.kept old stored
      have named : slot.id = old.id := congrArg Prod.fst key
      exact named ▸ nextId_fresh (List.mem_map_of_mem present)
    refine ⟨followed.today,followed.ledger,followed.marks,followed.annotations,placed.2,offerings,?_,?_,?_⟩
    · intro old stored
      obtain ⟨slot,present,key⟩ := followed.kept old stored
      exact ⟨slot,List.mem_append_left _ present,key⟩
    · intro slot stored
      rcases List.mem_append.mp stored with present | new
      · exact followed.slots slot present
      · cases List.mem_singleton.mp new
        exact .inr later
    · intro slot stored old stored' named
      rcases List.mem_append.mp stored with present | new
      · exact still slot present old stored' named (none old stored')
      · cases List.mem_singleton.mp new
        exact absurd named (Nat.ne_of_gt (later old stored'))
  · obtain ⟨stored,own,_,starts⟩ := matchedSlot_stored matched
    have answered : ∀ old ∈ before.slots, slot.id = old.id →
        PlacedBy reading before old (lastLine reading before cycle.id (lines ++ [row]) old.id) (correctedSlot slot row window room.id) := by
      intro old stored' named
      rw [lastLine_snoc,if_pos ((line stored').mpr ⟨slot,matched,named⟩)]
      exact ⟨window,room.id,read,starts,rfl,rfl,placed.1⟩
    have others : ∀ old ∈ before.slots, slot.id ≠ old.id → lineSlot reading before cycle.id row ≠ some old.id := by
      intro old stored' different asks
      obtain ⟨slot',matched',named⟩ := (line stored').mp asks
      rw [matched] at matched'
      cases Option.some.inj matched'
      exact different named
    rcases outcome with ⟨_,rfl,same⟩ | ⟨_,rfl⟩
    · refine ⟨followed.today,followed.ledger,followed.marks,followed.annotations,placed.2,offerings,followed.kept,followed.slots,?_⟩
      intro other present old stored' named
      by_cases mine : slot.id = old.id
      · cases same_of_key now present stored (named.trans mine.symm)
        rw [← same]
        exact answered old stored' mine
      · exact still other present old stored' named (others old stored' mine)
    · refine ⟨followed.today,followed.ledger,followed.marks,followed.annotations,placed.2,offerings,?_,?_,?_⟩
      · intro old stored'
        obtain ⟨slot',present,key⟩ := followed.kept old stored'
        by_cases mine : slot'.id = slot.id
        · cases same_of_key now present stored mine
          exact ⟨correctedSlot slot row window room.id,@setSlot_stored {s.db with resources := resources} slot _ stored rfl,key⟩
        · exact ⟨slot',List.mem_map.mpr ⟨slot',present,if_neg mine⟩,key⟩
      · intro other listed
        rcases setSlot_member listed with rfl | ⟨present,_⟩
        · exact followed.slots slot stored
        · exact followed.slots other present
      · intro other listed old stored' named
        rcases setSlot_member listed with rfl | ⟨present,different⟩
        · exact answered old stored' named
        · exact still other present old stored' named (others old stored' (fun mine => different (named.trans mine.symm)))

theorem importRows_followed {columns : List String} {cycle : PlanningCycle} (anchored : ∀ slot ∈ before.slots, Anchored before slot)
    (distinct : (before.slots.map StructuralMasterSlot.id).Nodup) (rows : List CsvRow) {line : Nat} (s : ImportState) {after : ImportState}
    {lines : List CsvRow} (importing : Importing cycle s.db s.corrected) (followed : Followed reading before cycle.id lines s.db)
    (done : importRows cal reading columns cycle line rows s = .ok after) : Followed reading before cycle.id (lines ++ rows) after.db := by
  induction rows generalizing line s lines with
  | nil =>
    cases done
    rw [List.append_nil]
    exact followed
  | cons row rest ih =>
    unfold importRows at done
    split at done
    · cases done
    · rename_i middle first
      have step := importRow_followed anchored distinct importing followed first
      obtain ⟨_,ready⟩ := importRow_moves importing first
      have all := ih middle ready step done
      rwa [List.append_assoc] at all

end ChronosLedger
