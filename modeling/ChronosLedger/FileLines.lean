import ChronosLedger.Library.Overwrites
import ChronosLedger.ImportLines

namespace ChronosLedger
open Overwrites

variable {cal : Recurrence} {reading : Reading} {columns : List String} {cycle : PlanningCycle} {cycleId : Nat} {db : Database}

-- A line of the file with the rows it comes to: an offering, a room and a slot.
structure FileLine where
  row : CsvRow
  window : RowWindow
  offeringId : Nat
  roomId : Nat
  slotId : Nat
  deriving DecidableEq, Repr

def offeringOf (db : Database) (cycleId : Nat) (row : CsvRow) : Option Activity :=
  db.activities.find? (fun a => a.cycleId = cycleId ∧ a.activityCode = row.activityCode)

def roomOf (reading : Reading) (db : Database) (row : CsvRow) : Option Resource :=
  db.resources.find? (fun r => r.code = reading.strip row.room)

def landing (reading : Reading) (cycleId : Nat) (db : Database) (row : CsvRow) : Option FileLine :=
  match rowWindow reading row with
  | .error _ => none
  | .ok window =>
    (offeringOf db cycleId row).bind (fun offering => (roomOf reading db row).bind (fun room =>
      (matchedSlot db offering.id (weeklyRule window.day) window.start).map (fun slot =>
        ⟨row,window,offering.id,room.id,slot.id⟩)))

-- What a line writes over the rows it comes to. An address is left as it is
-- spelled when it is the same address.
def settleMember (reading : Reading) (user : User) (row : CsvRow) : User :=
  if user.id = row.memberId then {user with
    fullName := row.memberName
    unitCode := some row.unit
    emailAddress := if reading.normalizeEmail user.emailAddress = reading.normalizeEmail row.memberEmail then user.emailAddress
      else reading.normalizeEmail row.memberEmail}
  else user

def settleOffering (activity : Activity) (line : FileLine) : Activity :=
  if activity.id = line.offeringId then {activity with activityTitle := line.row.activityTitle,unitCode := line.row.unit} else activity

def settleSlot (slot : StructuralMasterSlot) (line : FileLine) : StructuralMasterSlot :=
  if slot.id = line.slotId then correctedSlot slot line.row line.window line.roomId else slot

def settle (reading : Reading) (db : Database) (line : FileLine) : Database :=
  {db with
    users := db.users.map (fun user => settleMember reading user line.row)
    activities := db.activities.map (fun activity => settleOffering activity line)
    slots := db.slots.map (fun slot => settleSlot slot line)}

-- The address a line gives its member is the one the member has, or nobody's.
def addressFree (reading : Reading) (db : Database) (row : CsvRow) : Prop :=
  ∀ member ∈ db.user? row.memberId, reading.normalizeEmail member.emailAddress = reading.normalizeEmail row.memberEmail ∨
    ∀ owner ∈ emailOwner reading db (reading.normalizeEmail row.memberEmail), owner = some member.id

-- The slot a line is for is where the line has it, or may be put there.
def placeFree (cal : Recurrence) (reading : Reading) (cycle : PlanningCycle) (db : Database) (line : FileLine) : Prop :=
  ∀ slot ∈ matchedSlot db line.offeringId (weeklyRule line.window.day) line.window.start, ∀ room ∈ roomOf reading db line.row,
    slot.resourceId = some room.id ∧ slot.timeWindowEnd = line.window.finish ∨
      rowChecks cal db cycle line.row.activityCode room
        ⟨some room.id,weeklyRule line.window.day,slot.dtstart,line.window.start,line.window.finish⟩ (some slot.id) = .ok ()

-- The names a line writes, before the question about the room is asked.
def settleNames (reading : Reading) (db : Database) (line : FileLine) : Database :=
  {db with
    users := db.users.map (fun user => settleMember reading user line.row)
    activities := db.activities.map (fun activity => settleOffering activity line)}

@[simp] theorem settleMember_id (user : User) (row : CsvRow) : (settleMember reading user row).id = user.id := by
  unfold settleMember
  split <;> rfl
@[simp] theorem settleMember_deactivated (user : User) (row : CsvRow) : (settleMember reading user row).deactivated = user.deactivated := by
  unfold settleMember
  split <;> rfl
@[simp] theorem settleOffering_id (activity : Activity) (line : FileLine) : (settleOffering activity line).id = activity.id := by
  unfold settleOffering
  split <;> rfl
@[simp] theorem settleOffering_cycle (activity : Activity) (line : FileLine) : (settleOffering activity line).cycleId = activity.cycleId := by
  unfold settleOffering
  split <;> rfl
@[simp] theorem settleOffering_code (activity : Activity) (line : FileLine) :
    (settleOffering activity line).activityCode = activity.activityCode := by
  unfold settleOffering
  split <;> rfl
@[simp] theorem settleOffering_retired (activity : Activity) (line : FileLine) : (settleOffering activity line).retired = activity.retired := by
  unfold settleOffering
  split <;> rfl
@[simp] theorem settleSlot_id (slot : StructuralMasterSlot) (line : FileLine) : (settleSlot slot line).id = slot.id := by
  unfold settleSlot
  split <;> rfl
@[simp] theorem settleSlot_activity (slot : StructuralMasterSlot) (line : FileLine) : (settleSlot slot line).activityId = slot.activityId := by
  unfold settleSlot
  split <;> rfl
@[simp] theorem settleSlot_rule (slot : StructuralMasterSlot) (line : FileLine) : (settleSlot slot line).rrule = slot.rrule := by
  unfold settleSlot
  split <;> rfl
@[simp] theorem settleSlot_dtstart (slot : StructuralMasterSlot) (line : FileLine) : (settleSlot slot line).dtstart = slot.dtstart := by
  unfold settleSlot
  split <;> rfl
@[simp] theorem settleSlot_start (slot : StructuralMasterSlot) (line : FileLine) :
    (settleSlot slot line).timeWindowStart = slot.timeWindowStart := by
  unfold settleSlot
  split <;> rfl
@[simp] theorem settleSlot_retired (slot : StructuralMasterSlot) (line : FileLine) : (settleSlot slot line).retired = slot.retired := by
  unfold settleSlot
  split <;> rfl

theorem settleMember_lastCounts (folds : ∀ email, reading.normalizeEmail (reading.normalizeEmail email) = reading.normalizeEmail email) :
    LastCounts (settleMember reading) where
  again := by
    intro user row
    by_cases named : user.id = row.memberId
    · simp only [settleMember,named,if_true]
      split <;> simp_all
    · simp [settleMember,named]
  between := by
    intro user row other
    by_cases named : user.id = row.memberId
    · by_cases named' : user.id = other.memberId
      · by_cases same : reading.normalizeEmail user.emailAddress = reading.normalizeEmail row.memberEmail <;>
          by_cases alike : reading.normalizeEmail row.memberEmail = reading.normalizeEmail other.memberEmail <;>
            by_cases was : reading.normalizeEmail user.emailAddress = reading.normalizeEmail other.memberEmail <;>
              simp_all [settleMember]
      · have apart : ¬ row.memberId = other.memberId := fun same => named' (named.trans same)
        simp only [settleMember,named,apart,if_true,if_false]
        split <;> simp_all
    · simp only [settleMember,named,if_false]
      split <;> simp_all

theorem settleOffering_lastCounts : LastCounts settleOffering where
  again := by
    intro activity line
    by_cases named : activity.id = line.offeringId <;> simp [settleOffering,named]
  between := by
    intro activity line other
    by_cases named : activity.id = line.offeringId <;> by_cases named' : activity.id = other.offeringId <;>
      simp_all [settleOffering]

theorem settleSlot_lastCounts : LastCounts settleSlot where
  again := by
    intro slot line
    by_cases named : slot.id = line.slotId <;> simp [settleSlot,correctedSlot,named]
  between := by
    intro slot line other
    by_cases named : slot.id = line.slotId <;> by_cases named' : slot.id = other.slotId <;>
      simp_all [settleSlot,correctedSlot]

structure FileKeys (db : Database) : Prop where
  users : (db.users.map User.id).Nodup
  activities : (db.activities.map Activity.id).Nodup
  slots : (db.slots.map StructuralMasterSlot.id).Nodup

-- All that a line asks for is on record, and nobody and nothing it names is gone.
structure Lands (reading : Reading) (columns : List String) (cycleId : Nat) (db : Database) (line : FileLine) : Prop where
  filled : blankCells columns line.row = []
  window : rowWindow reading line.row = .ok line.window
  member : ∃ member, db.user? line.row.memberId = some member ∧ member.deactivated = false
  offering : ∃ offering, offeringOf db cycleId line.row = some offering ∧ offering.id = line.offeringId ∧ offering.retired = false
  enrolled : ∃ enrollment ∈ db.enrollments, enrollment.activityId = line.offeringId ∧ enrollment.memberId = line.row.memberId
  room : ∃ room, roomOf reading db line.row = some room ∧ room.id = line.roomId
  slot : ∃ slot, matchedSlot db line.offeringId (weeklyRule line.window.day) line.window.start = some slot ∧ slot.id = line.slotId ∧
    slot.retired = false
  lead : ∃ lead, db.user? line.row.leadId = some lead ∧ lead.deactivated = false

theorem Lands.landing {line : FileLine} (lands : Lands reading columns cycleId db line) :
    ChronosLedger.landing reading cycleId db line.row = some line := by
  obtain ⟨offering,offered,one,_⟩ := lands.offering
  obtain ⟨room,roomed,two⟩ := lands.room
  obtain ⟨slot,matched,three,_⟩ := lands.slot
  simp only [ChronosLedger.landing,lands.window,offered,roomed,Option.bind_some,one,matched,Option.map_some,two,three]

-- What is written over a table of distinct ids where one row is found is what is
-- written over every row.
theorem map_found {α κ : Type} [DecidableEq κ] {key : α → κ} {rows : List α} (distinct : (rows.map key).Nodup) {row : α} (stored : row ∈ rows)
    (write : α → α) : rows.map (fun other => if key other = key row then write row else other) =
      rows.map (fun other => if key other = key row then write other else other) := by
  apply List.map_congr_left
  intro other listed
  split
  · rename_i same
    rw [List.inj_on_of_nodup_map distinct listed stored same]
  · rfl

theorem map_fresh {α κ : Type} {key : α → κ} {rows : List α} {id : κ} (fresh : id ∉ rows.map key) {write : α → α}
    (only : ∀ row, key row ≠ id → write row = row) : rows.map write = rows := by
  conv_rhs => rw [← List.map_id rows]
  apply List.map_congr_left
  intro row listed
  exact only row (fun same => fresh (same ▸ List.mem_map_of_mem listed))

-- A table as a line leaves it: perhaps a row more, and the line written over all.
structure Grown {α κ : Type} (key : α → κ) (write : α → α) (rows made : List α) : Prop where
  distinct : ((rows ++ made).map key).Nodup
  written : ∀ row ∈ made, write row = row

theorem grown_none {α κ : Type} {key : α → κ} {write : α → α} {rows : List α} (distinct : (rows.map key).Nodup) : Grown key write rows [] :=
  ⟨by simpa using distinct,by simp⟩

theorem grown_one {α κ : Type} {key : α → κ} {write : α → α} {rows : List α} {row : α} (distinct : (rows.map key).Nodup)
    (fresh : key row ∉ rows.map key) (written : write row = row) : Grown key write rows [row] := by
  refine ⟨?_,by simpa using written⟩
  rw [List.map_append,List.map_singleton]
  exact List.nodup_append.mpr ⟨distinct,by simp,fun id there other listed same => by
    cases List.mem_singleton.mp listed
    exact fresh (same ▸ there)⟩

theorem Grown.fresh {α κ : Type} {key : α → κ} {write : α → α} {rows made : List α} (grown : Grown key write rows made) {row : α}
    (listed : row ∈ made) : key row ∉ rows.map key := by
  have distinct := grown.distinct
  rw [List.map_append] at distinct
  exact fun there => (List.nodup_append.mp distinct).2.2 _ there _ (List.mem_map_of_mem listed) rfl

theorem upsertMember_again {s next : ImportState} {row : CsvRow} {member : User} (keys : (s.db.users.map User.id).Nodup)
    (known : s.db.user? row.memberId = some member) (active : member.deactivated = false) :
    upsertMember reading s row = .ok next ↔ addressFree reading s.db row ∧
      next = {s with db := {s.db with users := s.db.users.map (fun user => settleMember reading user row)}} := by
  have stored := List.mem_of_find?_eq_some known
  have named : member.id = row.memberId := by simpa using List.find?_some known
  have settled : setUser s.db (settleMember reading member row) =
      {s.db with users := s.db.users.map (fun user => settleMember reading user row)} := by
    have over_ := map_found keys stored (fun user => settleMember reading user row)
    simp only [setUser,settleMember_id]
    rw [over_]
    congr 1
    apply List.map_congr_left
    intro user _
    split
    · rfl
    · rename_i other
      have apart : ¬ user.id = row.memberId := fun same' => other (same'.trans named.symm)
      simp [settleMember,apart]
  have here : ¬ member.deactivated = true := by simp [active]
  unfold upsertMember addressFree
  simp only [known,if_neg here,Option.mem_some_iff,forall_eq']
  by_cases alike : reading.normalizeEmail member.emailAddress = reading.normalizeEmail row.memberEmail
  · have same : {member with fullName := row.memberName,unitCode := some row.unit} = settleMember reading member row := by
      simp [settleMember,named,alike]
    simp only [alike,if_true,true_or,true_and,Except.ok.injEq]
    rw [same,settled]
    exact eq_comm
  · have same : {member with fullName := row.memberName,unitCode := some row.unit,emailAddress := reading.normalizeEmail row.memberEmail} =
        settleMember reading member row := by
      simp [settleMember,named,alike]
    simp only [alike,if_false,false_or]
    cases owned : emailOwner reading s.db (reading.normalizeEmail row.memberEmail) with
    | none =>
      simp only [Option.not_mem_none,false_imp_iff,implies_true,true_and,Except.ok.injEq]
      rw [same,settled]
      exact eq_comm
    | some owner =>
      simp only [Option.mem_some_iff,forall_eq']
      by_cases own : owner = some member.id
      · simp only [own,if_true,true_and,Except.ok.injEq]
        rw [same,settled]
        exact eq_comm
      · simp [own]

theorem upsertMember_settles {s next : ImportState} {row : CsvRow} (keys : (s.db.users.map User.id).Nodup)
    (done : upsertMember reading s row = .ok next) :
    ∃ made provisioned, next = {s with
        db := {s.db with users := (s.db.users ++ made).map (fun user => settleMember reading user row)},provisioned := provisioned} ∧
      Grown User.id (fun user => settleMember reading user row) s.db.users made ∧
      ∃ member ∈ s.db.users ++ made, member.id = row.memberId ∧ member.deactivated = false := by
  cases known : s.db.user? row.memberId with
  | none =>
    have fresh : row.memberId ∉ s.db.users.map User.id := by
      intro there
      obtain ⟨user,stored,same⟩ := List.mem_map.mp there
      have none := List.find?_eq_none.mp known user stored
      simp [same] at none
    let new : User := ⟨row.memberId,row.memberName,reading.normalizeEmail row.memberEmail,.member,some row.unit,none,false⟩
    have still : s.db.users.map (fun user => settleMember reading user row) = s.db.users :=
      map_fresh fresh (fun user other => by simp [settleMember,other])
    have own : settleMember reading new row = new := by
      simp [settleMember,new]
    unfold upsertMember at done
    simp only [known] at done
    split at done
    · cases done
    · split at done
      · cases done
      · cases done
        refine ⟨[new],s.provisioned ++ [(row.memberId,reading.normalizeEmail row.memberEmail)],?_,grown_one keys fresh own,
          new,List.mem_append_right _ (List.mem_singleton_self _),rfl,rfl⟩
        rw [List.map_append,still,List.map_singleton,own]
  | some member =>
    have active : member.deactivated = false := by
      cases gone : member.deactivated with
      | false => rfl
      | true =>
        simp only [upsertMember,known,gone,if_true] at done
        cases done
    obtain ⟨_,rfl⟩ := (upsertMember_again keys known active).mp done
    refine ⟨[],s.provisioned,by rw [List.append_nil],grown_none keys,member,?_,(find_key known).2,active⟩
    rw [List.append_nil]
    exact (find_key known).1

theorem offeringOf_settled (activities : List Activity) (cycleId : Nat) (row : CsvRow) (line : FileLine) :
    offeringOf {db with activities := activities.map (fun activity => settleOffering activity line)} cycleId row =
      (offeringOf {db with activities := activities} cycleId row).map (fun activity => settleOffering activity line) := by
  unfold offeringOf
  rw [List.find?_map]
  congr 2
  funext activity
  simp

theorem upsertOffering_again {cycleId : Nat} {line : FileLine} {offering : Activity} (keys : (db.activities.map Activity.id).Nodup)
    (offered : offeringOf db cycleId line.row = some offering) (named : offering.id = line.offeringId) (live : offering.retired = false) :
    upsertOffering db cycleId line.row =
      .ok ({db with activities := db.activities.map (fun activity => settleOffering activity line)},settleOffering offering line) := by
  have stored := List.mem_of_find?_eq_some offered
  have own : settleOffering offering line = {offering with activityTitle := line.row.activityTitle,unitCode := line.row.unit} := by
    simp [settleOffering,named]
  have settled : setActivity db {offering with activityTitle := line.row.activityTitle,unitCode := line.row.unit} =
      {db with activities := db.activities.map (fun activity => settleOffering activity line)} := by
    have over_ := map_found keys stored (fun activity => settleOffering activity line)
    simp only [own] at over_
    simp only [setActivity]
    rw [over_]
    congr 1
    apply List.map_congr_left
    intro activity _
    split
    · rfl
    · rename_i other
      have apart : ¬ activity.id = line.offeringId := by rw [← named]; exact other
      simp [settleOffering,apart]
  have here : ¬ offering.retired = true := by simp [live]
  unfold offeringOf at offered
  unfold upsertOffering
  simp only [offered,if_neg here]
  rw [settled,own]

theorem upsertOffering_settles {next : Database} {row : CsvRow} {offering : Activity} {cycleId : Nat}
    (distinct : (db.activities.map Activity.id).Nodup) (done : upsertOffering db cycleId row = .ok (next,offering)) {line : FileLine}
    (of : line.row = row) (named : line.offeringId = offering.id) :
    ∃ made, next = {db with activities := (db.activities ++ made).map (fun activity => settleOffering activity line)} ∧
      Grown Activity.id (fun activity => settleOffering activity line) db.activities made ∧
      offeringOf next cycleId row = some offering ∧ offering.retired = false := by
  subst of
  cases known : offeringOf db cycleId line.row with
  | none =>
    have fresh := nextId_notMem (db.activities.map Activity.id)
    unfold offeringOf at known
    unfold upsertOffering at done
    simp only [known] at done
    cases done
    have own : settleOffering ⟨nextId (db.activities.map Activity.id),line.row.activityCode,line.row.activityTitle,line.row.unit,cycleId,false⟩
        line = ⟨nextId (db.activities.map Activity.id),line.row.activityCode,line.row.activityTitle,line.row.unit,cycleId,false⟩ := by
      simp [settleOffering]
    have still : db.activities.map (fun activity => settleOffering activity line) = db.activities :=
      map_fresh fresh (fun activity other => by simp [settleOffering,named,other])
    refine ⟨[_],?_,grown_one distinct fresh own,?_,rfl⟩
    · rw [List.map_append,still,List.map_singleton,own]
    · simp only [offeringOf,List.find?_append,known,Option.none_or]
      simp
  | some old =>
    have live : old.retired = false := by
      cases gone : old.retired with
      | false => rfl
      | true =>
        unfold offeringOf at known
        simp only [upsertOffering,known,gone,if_true] at done
        cases done
    have same : old.id = line.offeringId := by
      unfold offeringOf at known
      have here : ¬ old.retired = true := by simp [live]
      simp only [upsertOffering,known,if_neg here,Except.ok.injEq,Prod.mk.injEq] at done
      rw [named,← done.2]
    rw [upsertOffering_again distinct known same live] at done
    cases done
    refine ⟨[],by rw [List.append_nil],grown_none distinct,?_,by simpa using live⟩
    rw [offeringOf_settled,known]
    rfl

theorem matchedSlot_settled {slots : List StructuralMasterSlot} {activityId : Nat} {rule : String} {start : Time} {line : FileLine}
    (distinct : (slots.map StructuralMasterSlot.id).Nodup) {slot : StructuralMasterSlot}
    (matched : matchedSlot {db with slots := slots} activityId rule start = some slot) :
    matchedSlot {db with slots := slots.map (fun slot => settleSlot slot line)} activityId rule start = some (settleSlot slot line) := by
  obtain ⟨stored,like,least⟩ := (matchedSlot_exact distinct).mp matched
  refine (matchedSlot_exact ?_).mpr ⟨List.mem_map_of_mem stored,by simpa using like,?_⟩
  · rw [List.map_map]
    exact (List.map_congr_left (fun slot _ => settleSlot_id slot line)) ▸ distinct
  · intro other listed
    obtain ⟨slot',stored',rfl⟩ := List.mem_map.mp listed
    simpa using least slot' stored'

-- A slot added with a new id does not come before the ones like it.
theorem matchedSlot_grown {slots made : List StructuralMasterSlot} {activityId : Nat} {rule : String} {start : Time}
    (distinct : ((slots ++ made).map StructuralMasterSlot.id).Nodup)
    (newer : ∀ new ∈ made, ∀ old ∈ slots, old.id < new.id) {slot : StructuralMasterSlot}
    (matched : matchedSlot {db with slots := slots} activityId rule start = some slot) :
    matchedSlot {db with slots := slots ++ made} activityId rule start = some slot := by
  have part : (slots.map StructuralMasterSlot.id).Nodup := by
    rw [List.map_append] at distinct
    exact (List.nodup_append.mp distinct).1
  obtain ⟨stored,like,least⟩ := (matchedSlot_exact part).mp matched
  refine (matchedSlot_exact distinct).mpr ⟨List.mem_append_left _ stored,like,?_⟩
  intro other listed like'
  rcases List.mem_append.mp listed with old | new
  · exact least other old like'
  · exact Nat.le_of_lt (newer other new slot stored)

theorem room_found (strip : String → String) (code : String) (db : Database) :
    ∃ rooms, (getOrCreateRoom strip code db).2 = {db with resources := db.resources ++ rooms} ∧
      (db.resources ++ rooms).find? (fun r => r.code = strip code) = some (getOrCreateRoom strip code db).1 := by
  unfold getOrCreateRoom
  split
  · rename_i existing known
    exact ⟨[],by simp,by simpa using known⟩
  · rename_i absent
    refine ⟨[_],rfl,?_⟩
    rw [List.find?_append,absent,Option.none_or]
    simp

theorem setSlot_settles {line : FileLine} {slot : StructuralMasterSlot} (keys : (db.slots.map StructuralMasterSlot.id).Nodup)
    (stored : slot ∈ db.slots) (named : slot.id = line.slotId) :
    setSlot db (settleSlot slot line) = {db with slots := db.slots.map (fun slot => settleSlot slot line)} := by
  have over_ := map_found keys stored (fun slot => settleSlot slot line)
  simp only [setSlot,settleSlot_id]
  rw [over_]
  congr 1
  apply List.map_congr_left
  intro other _
  split
  · rfl
  · rename_i different
    have apart : ¬ other.id = line.slotId := fun same => different (same.trans named.symm)
    simp [settleSlot,apart]

theorem upsertSlot_settles {next : Database} {activityId slotId : Nat} {row : CsvRow} {window : RowWindow} {changed : Bool}
    (distinct : (db.slots.map StructuralMasterSlot.id).Nodup)
    (done : upsertSlot cal reading db cycle activityId row window = .ok (next,slotId,changed)) :
    ∃ rooms made roomId, next = {db with
        resources := db.resources ++ rooms
        slots := (db.slots ++ made).map (fun slot => settleSlot slot ⟨row,window,activityId,roomId,slotId⟩)} ∧
      Grown StructuralMasterSlot.id (fun slot => settleSlot slot ⟨row,window,activityId,roomId,slotId⟩) db.slots made ∧
      (∀ new ∈ made, new.id = slotId ∧ ∀ old ∈ db.slots, old.id < new.id) ∧
      (∃ room, roomOf reading next row = some room ∧ room.id = roomId) ∧
      (∃ slot, matchedSlot next activityId (weeklyRule window.day) window.start = some slot ∧ slot.id = slotId ∧ slot.retired = false) ∧
      (∃ lead, db.user? row.leadId = some lead ∧ lead.deactivated = false) ∧
      (changed = false → ∀ slot ∈ db.slots, settleSlot slot ⟨row,window,activityId,roomId,slotId⟩ = slot) := by
  unfold upsertSlot at done
  simp only [bind_parts,refuseText_parts,foundText_parts] at done
  obtain ⟨_,live,dtstart,_,_,_,lead,led,_,active,kept⟩ := done
  obtain ⟨rooms,grown,roomed⟩ := room_found reading.strip row.room db
  generalize getOrCreateRoom reading.strip row.room db = asked at grown roomed led kept
  obtain ⟨room,base⟩ := asked
  dsimp only at grown roomed led kept
  subst grown
  cases found_ : matchedSlot db activityId (weeklyRule window.day) window.start with
  | none =>
    simp only [found_,Except.ok.injEq,Prod.mk.injEq] at kept
    obtain ⟨rfl,rfl,rfl⟩ := kept
    have fresh := nextId_notMem (db.slots.map StructuralMasterSlot.id)
    let line : FileLine := ⟨row,window,activityId,room.id,nextId (db.slots.map StructuralMasterSlot.id)⟩
    have still : ∀ slot ∈ db.slots, settleSlot slot line = slot := by
      intro slot stored
      have other : ¬ slot.id = line.slotId := fun same =>
        fresh (List.mem_map.mpr ⟨slot,stored,same⟩)
      simp [settleSlot,other]
    let new : StructuralMasterSlot := ⟨nextId (db.slots.map StructuralMasterSlot.id),weeklyRule window.day,dtstart,window.start,
      window.finish,activityId,some row.leadId,some room.id,false⟩
    have own : settleSlot new line = new := by
      simp [settleSlot,correctedSlot,new,line]
    have newer : ∀ old ∈ db.slots, old.id < new.id := fun old stored => nextId_fresh (List.mem_map_of_mem stored)
    have whole : Grown StructuralMasterSlot.id (fun slot => settleSlot slot line) db.slots [new] := grown_one distinct fresh own
    refine ⟨rooms,[new],room.id,?_,whole,?_,⟨room,roomed,rfl⟩,⟨new,?_,rfl,rfl⟩,⟨lead,led,active⟩,fun _ => still⟩
    · have same : (db.slots ++ [new]).map (fun slot => settleSlot slot line) = db.slots ++ [new] := by
        rw [List.map_append,List.map_congr_left still,List.map_id',List.map_singleton,own]
      rw [same]
    · intro added listed
      cases List.mem_singleton.mp listed
      exact ⟨rfl,newer⟩
    · refine (matchedSlot_exact whole.distinct).mpr ⟨List.mem_append_right _ (List.mem_singleton_self _),⟨rfl,rfl,rfl⟩,?_⟩
      intro other listed like
      rcases List.mem_append.mp listed with old | added
      · have unlike := List.find?_eq_none.mp found_ other ((List.mem_insertionSort _).mpr old)
        exact absurd like (by simpa using unlike)
      · exact le_of_eq (congrArg StructuralMasterSlot.id (List.mem_singleton.mp added)).symm
  | some slot =>
    obtain ⟨stored,like⟩ := matchedSlot_stored found_
    simp only [found_,Option.any_some] at live kept
    let line : FileLine := ⟨row,window,activityId,room.id,slot.id⟩
    have own : settleSlot slot line = correctedSlot slot row window room.id := by
      simp [settleSlot,line]
    have outcome : slotId = slot.id ∧ next = {db with
          resources := db.resources ++ rooms,slots := db.slots.map (fun slot => settleSlot slot line)} ∧
        (changed = false → ∀ other ∈ db.slots, settleSlot other line = other) := by
      split at kept
      · rename_i same
        have still : ∀ other ∈ db.slots, settleSlot other line = other := by
          intro other listed
          by_cases here : other.id = slot.id
          · rw [same_of_key distinct listed stored here,own]
            exact same
          · simp [settleSlot,line,here]
        cases kept
        exact ⟨rfl,by rw [List.map_congr_left still,List.map_id'],fun _ => still⟩
      · have settled := @setSlot_settles {db with resources := db.resources ++ rooms} line slot distinct stored rfl
        rw [own] at settled
        cases kept
        exact ⟨rfl,settled,fun unchanged => by cases unchanged⟩
    obtain ⟨rfl,rfl,still⟩ := outcome
    refine ⟨rooms,[],room.id,by rw [List.append_nil],grown_none distinct,by simp,⟨room,roomed,rfl⟩,
      ⟨settleSlot slot line,matchedSlot_settled distinct found_,by simp,by simpa using live⟩,⟨lead,led,active⟩,still⟩

theorem upsertSlot_again {next : Database} {line : FileLine} {slot : StructuralMasterSlot} {room : Resource} {slotId : Nat} {changed : Bool}
    (keys : (db.slots.map StructuralMasterSlot.id).Nodup)
    (matched : matchedSlot db line.offeringId (weeklyRule line.window.day) line.window.start = some slot) (named : slot.id = line.slotId)
    (live : slot.retired = false) (roomed : roomOf reading db line.row = some room) (housed : room.id = line.roomId)
    (led : ∃ lead, db.user? line.row.leadId = some lead ∧ lead.deactivated = false) :
    upsertSlot cal reading db cycle line.offeringId line.row line.window = .ok (next,slotId,changed) ↔
      placeFree cal reading cycle db line ∧ next = {db with slots := db.slots.map (fun slot => settleSlot slot line)} ∧
        slotId = line.slotId ∧ changed = decide (settleSlot slot line ≠ slot) := by
  obtain ⟨lead,known,active⟩ := led
  have asked : getOrCreateRoom reading.strip line.row.room db = (room,db) := by
    unfold roomOf at roomed
    unfold getOrCreateRoom
    rw [roomed]
  have settled := setSlot_settles keys (matchedSlot_stored matched).1 named
  have own : settleSlot slot line = correctedSlot slot line.row line.window room.id := by
    simp [settleSlot,named,housed]
  have kept : (if correctedSlot slot line.row line.window room.id = slot then (.ok (db,slot.id,false) : Imported (Database × Nat × Bool))
      else .ok (setSlot db (correctedSlot slot line.row line.window room.id),slot.id,true)) = .ok (next,slotId,changed) ↔
      next = {db with slots := db.slots.map (fun slot => settleSlot slot line)} ∧ slotId = line.slotId ∧
        changed = decide (settleSlot slot line ≠ slot) := by
    rw [← own,← settled,named]
    split
    · rename_i same
      have unmoved : setSlot db (settleSlot slot line) = db := by
        have over_ := map_found keys (matchedSlot_stored matched).1 id
        simp only [id,ite_self,List.map_id'] at over_
        rw [same]
        simp only [setSlot,over_]
      rw [unmoved]
      simp [same,eq_comm]
    · rename_i moved
      simp [moved,eq_comm]
  have live_ : (some slot).any StructuralMasterSlot.retired = false := by simpa using live
  have moves : (if (some slot).all (fun slot => slot.resourceId ≠ some room.id || slot.timeWindowEnd ≠ line.window.finish) then
        rowChecks cal db cycle line.row.activityCode room
          ⟨some room.id,weeklyRule line.window.day,slot.dtstart,line.window.start,line.window.finish⟩ (some slot.id) else .ok ()) = .ok () ↔
      slot.resourceId = some room.id ∧ slot.timeWindowEnd = line.window.finish ∨ rowChecks cal db cycle line.row.activityCode room
        ⟨some room.id,weeklyRule line.window.day,slot.dtstart,line.window.start,line.window.finish⟩ (some slot.id) = .ok () := by
    by_cases there : slot.resourceId = some room.id ∧ slot.timeWindowEnd = line.window.finish
    · simp [there]
    · have elsewhere : (some slot).all (fun slot => slot.resourceId ≠ some room.id || slot.timeWindowEnd ≠ line.window.finish) = true := by
        simpa [← not_and_or] using there
      rw [if_pos elsewhere]
      simp [there]
  unfold upsertSlot placeFree
  simp only [matched,asked,roomed,bind_parts,refuseText_parts,foundText_parts,known,rowStart,Except.ok.injEq,Option.some.injEq,
    Option.mem_some_iff,forall_eq']
  rw [← moves,← kept]
  constructor
  · rintro ⟨_,_,_,rfl,_,free,_,rfl,_,_,done⟩
    exact ⟨free,done⟩
  · rintro ⟨free,done⟩
    exact ⟨(),live_,_,rfl,(),free,_,rfl,(),active,done⟩

end ChronosLedger
