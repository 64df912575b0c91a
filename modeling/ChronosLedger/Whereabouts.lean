import ChronosLedger.LocationResolver
import ChronosLedger.HorizonJobs

namespace ChronosLedger
open FirstAnswers

variable {cal : Recurrence} {order : ReadOrder} {db : Database} {redisCache : RedisCache} {instant : Int}

-- A window somebody may be in: a row's own, or that of a slot on a date.
inductive OpenWindow where
  | day (day : TimedDay)
  | slotDate (date : Int) (booked : BookedSlot)
  deriving DecidableEq, Repr

-- The windows running at the instant, among the rows a person leads or covers
-- and the dates of the live slots they lead that no row stands for.
def Running (cal : Recurrence) (db : Database) (instant : Int) (id : String) : OpenWindow → Prop
  | .day day => day ∈ db.ledger.filterMap timedDay ∧ (day.row.activeLeadId = some id ∨ day.row.substituteLeadId = some id) ∧
      covers instant day.row.targetDate day.start day.finish = true
  | .slotDate date booked => Planned cal db booked date ∧ hasDay db booked.slot.id date = false ∧
      booked.slot.primaryLeadId = some id ∧ covers instant date booked.slot.timeWindowStart booked.slot.timeWindowEnd = true

-- No two running rows, and no two running slots, on one date from one start.
def Untied (cal : Recurrence) (db : Database) (instant : Int) (id : String) : Prop :=
  (∀ a b, Running cal db instant id (.day a) → Running cal db instant id (.day b) → dayRank a = dayRank b → a = b) ∧
  ∀ a b, Running cal db instant id (.slotDate a.1 a.2) → Running cal db instant id (.slotDate b.1 b.2) → slotRank a = slotRank b → a = b

-- What a row says of its cover and of its lead.
def coverTold (db : Database) (day : TimedDay) : List (String × Whereabouts) :=
  let room := targetRoomIdentifier db day.row.resourceId
  if day.row.operationalState ∈ coverable then
    day.row.substituteLeadId.toList.map (fun cover => (cover,⟨room,"Substituting in Room " ++ roomText room⟩))
  else []

def leadTold (db : Database) (code : String) (day : TimedDay) : List (String × Whereabouts) :=
  if day.row.operationalState = .onLeave then day.row.activeLeadId.toList.map (fun lead => (lead,onApprovedLeave))
  else if day.row.operationalState = .scheduled ∧ day.row.substituteLeadId = none then
    day.row.activeLeadId.toList.map (fun lead => (lead,leading (targetRoomIdentifier db day.row.resourceId) code))
  else []

def dayTold (db : Database) (code : String) (day : TimedDay) : List (String × Whereabouts) := coverTold db day ++ leadTold db code day

def activityCode (db : Database) (id : Nat) : String := ((db.activity? id).map Activity.activityCode).getD "a session"

def dateAnswer (db : Database) (found : Int × BookedSlot) : Whereabouts :=
  if approvedLeave db found.2.slot.primaryLeadId found.1 then onApprovedLeave
  else leading (targetRoomIdentifier db found.2.slot.resourceId) found.2.activity.activityCode

def override (redisCache : RedisCache) (id : String) : Option Whereabouts :=
  ((redisCache.bind (fun mget => mget ("state_override:" ++ id))).filter (fun cached => cached ≠ "")).map (fun cached =>
    ⟨some "UNKNOWN",cached⟩)

def daysOf (db : Database) (instant : Int) (id : String) : List TimedDay :=
  ((db.ledger.filterMap timedDay).filter (fun day => (day.row.activeLeadId = some id ∨ day.row.substituteLeadId = some id) ∧
    covers instant day.row.targetDate day.start day.finish = true)).insertionSort (fun a b => dayRank a ≤ dayRank b)

def datesOf (cal : Recurrence) (db : Database) (instant : Int) (id : String) : List (Int × BookedSlot) :=
  ((openSlots db).flatMap (fun booked => ([dateOf instant-1,dateOf instant].filter (fun day =>
    occursOn cal booked.slot.rrule booked.slot.dtstart day ∧ within (some booked.cycle) day = true ∧
    hasDay db booked.slot.id day = false ∧ booked.slot.primaryLeadId = some id ∧
    covers instant day booked.slot.timeWindowStart booked.slot.timeWindowEnd = true)).map (fun day => (day,booked)))).insertionSort
      (fun a b => slotRank a ≤ slotRank b)

-- Where one person is, asked about alone: what they said themselves, the first
-- running row that says something of them, the first running slot no row stands
-- for, the leave they have today, and the place they are kept at.
def whereIs (cal : Recurrence) (db : Database) (redisCache : RedisCache) (instant : Int) (person : StaffUser) : Whereabouts :=
  ((override redisCache person.id).or
    (((daysOf db instant person.id).findSome? (fun day =>
      (dayTold db (activityCode db day.row.activityId) day).lookup person.id)).or
    (((datesOf cal db instant person.id).findSome? (fun found => some (dateAnswer db found))).or
    (if approvedLeave db (some person.id) (dateOf instant) then some onApprovedLeave else none)))).getD (stationed person)

theorem resolveOverride_lookup (resolved : Resolved) (person : StaffUser) (cached : Option String) (id : String) :
    (resolveOverride resolved (person,cached)).lookup id =
      if id = person.id then ((cached.filter (fun text => text ≠ "")).map (fun text => ⟨some "UNKNOWN",text⟩)).or (resolved.lookup id)
      else resolved.lookup id := by
  unfold resolveOverride
  by_cases same : id = person.id
  · subst same
    cases cached with
    | none => simp
    | some text => by_cases empty : text = "" <;> simp [empty,Option.filter]
  · have other : (id == person.id) = false := by simpa using same
    rw [if_neg same]
    cases cached with
    | none => rfl
    | some text => by_cases empty : text = "" <;> simp [empty,List.lookup_cons,other]

theorem overrides_lookup (staff : List StaffUser) (resolved : Resolved) (id : String) :
    ((staff.zip (overrides redisCache staff)).foldl resolveOverride resolved).lookup id =
      if id ∈ staff.map StaffUser.id then (override redisCache id).or (resolved.lookup id) else resolved.lookup id := by
  have each : overrides redisCache staff = staff.map (fun person => redisCache.bind (fun mget => mget ("state_override:" ++ person.id))) := by
    unfold overrides
    cases redisCache <;> rfl
  rw [each]
  clear each
  induction staff generalizing resolved with
  | nil => rfl
  | cons person rest ih =>
    rw [List.map_cons,List.zip_cons_cons,List.foldl_cons,ih,resolveOverride_lookup]
    simp only [List.map_cons,List.mem_cons]
    by_cases same : id = person.id
    · subst same
      simp only [true_or,if_true]
      split
      · unfold override
        cases (redisCache.bind (fun mget => mget ("state_override:" ++ person.id))).filter (fun text => text ≠ "") <;> simp
      · rfl
    · simp [same]

theorem manualOverrides_exact (redisCache : RedisCache) {staff : List StaffUser} {id : String} (asked : id ∈ staff.map StaffUser.id) :
    (manualOverrides redisCache staff).lookup id = override redisCache id := by
  unfold manualOverrides
  rw [overrides_lookup,if_pos asked]
  simp

theorem gather_kept (asked : List String) (resolved : Resolved) (id : String) (told : Whereabouts) :
    gather resolved ([(id,told)].filter (fun offered => offered.1 ∈ asked)) =
      if id ∈ asked ∧ (resolved.lookup id).isNone then (id,told) :: resolved else resolved := by
  by_cases named : id ∈ asked
  · cases known : resolved.lookup id <;> simp [gather,offer,named,known]
  · simp [gather,named]

theorem resolveCover_gathers (asked : List String) (resolved : Resolved) (day : TimedDay) :
    resolveCover db asked resolved day = gather resolved ((coverTold db day).filter (fun told => told.1 ∈ asked)) := by
  unfold resolveCover coverTold
  cases day.row.substituteLeadId with
  | none => simp [gather]
  | some cover =>
    by_cases able : day.row.operationalState ∈ coverable
    · rw [if_pos able]
      simp only [Option.toList_some,List.map_cons,List.map_nil,gather_kept,able,and_true]
    · simp [able,gather]

theorem resolveLead_gathers (codes : List (Nat × String)) (asked : List String) (resolved : Resolved) (day : TimedDay) :
    resolveLead db codes asked resolved day =
      gather resolved ((leadTold db ((codes.lookup day.row.activityId).getD "a session") day).filter (fun told => told.1 ∈ asked)) := by
  unfold resolveLead leadTold
  cases day.row.activeLeadId with
  | none => split_ifs <;> simp [gather]
  | some lead =>
    simp only [Option.toList_some,List.map_cons,List.map_nil]
    by_cases open_ : lead ∈ asked ∧ (resolved.lookup lead).isNone
    · have told : ∀ answer, gather resolved ([(lead,answer)].filter (fun told => told.1 ∈ asked)) = (lead,answer) :: resolved := by
        intro answer
        rw [gather_kept,if_pos open_]
      have known : ¬ (lead ∉ asked ∨ (resolved.lookup lead).isSome) := by
        rw [← Option.not_isNone]
        simp [open_]
      rw [if_neg known]
      split_ifs
      · exact (told _).symm
      · exact (told _).symm
      · rfl
    · have told : ∀ answer, gather resolved ([(lead,answer)].filter (fun told => told.1 ∈ asked)) = resolved := by
        intro answer
        rw [gather_kept,if_neg open_]
      have known : lead ∉ asked ∨ (resolved.lookup lead).isSome := by
        rw [← Option.not_isNone]
        by_cases named : lead ∈ asked <;> simp_all
      rw [if_pos known]
      split_ifs
      · exact (told _).symm
      · exact (told _).symm
      · rfl

theorem resolveDay_gathers (codes : List (Nat × String)) (asked : List String) (resolved : Resolved) (day : TimedDay) :
    resolveDay db codes asked resolved day =
      gather resolved ((dayTold db ((codes.lookup day.row.activityId).getD "a session") day).filter (fun told => told.1 ∈ asked)) := by
  unfold resolveDay dayTold gather
  rw [List.filter_append,List.foldl_append]
  exact (resolveLead_gathers codes asked _ day).trans (by rw [resolveCover_gathers]; rfl)

-- The loop of a tier in terms of what it is worth to one person.
theorem resolveDays_lookup {codes : List (Nat × String)} {asked : List String} {resolved : Resolved} {id : String} (named : id ∈ asked)
    (running : List TimedDay) : (running.foldl (resolveDay db codes asked) resolved).lookup id =
      (resolved.lookup id).or (running.findSome? (fun day =>
        (dayTold db ((codes.lookup day.row.activityId).getD "a session") day).lookup id)) := by
  rw [steps_gather _ (resolveDay_gathers codes asked),gather_lookup,lookup_flatMap]
  have kept : ∀ day : TimedDay, ((dayTold db ((codes.lookup day.row.activityId).getD "a session") day).filter
      (fun told => told.1 ∈ asked)).lookup id = (dayTold db ((codes.lookup day.row.activityId).getD "a session") day).lookup id :=
    fun day => lookup_filter (fun key => key ∈ asked) (by simpa using named)
  simp only [kept]

def slotTold (db : Database) (instant : Int) (generated : List (Nat × Int)) (absent : List (String × Int)) (found : Int × BookedSlot) :
    List (String × Whereabouts) :=
  if (found.2.slot.id,found.1) ∉ generated ∧ covers instant found.1 found.2.slot.timeWindowStart found.2.slot.timeWindowEnd then
    found.2.slot.primaryLeadId.toList.map (fun lead => (lead,if (lead,found.1) ∈ absent then onApprovedLeave
      else leading (targetRoomIdentifier db found.2.slot.resourceId) found.2.activity.activityCode))
  else []

theorem resolveSlot_gathers (generated : List (Nat × Int)) (absent : List (String × Int)) (resolved : Resolved) (found : Int × BookedSlot) :
    resolveSlot db instant generated absent resolved found = gather resolved (slotTold db instant generated absent found) := by
  unfold resolveSlot slotTold
  by_cases written : (found.2.slot.id,found.1) ∈ generated
  · simp [written,gather]
  rw [if_neg written]
  cases found.2.slot.primaryLeadId with
  | none => simp [gather]
  | some lead =>
    by_cases running : covers instant found.1 found.2.slot.timeWindowStart found.2.slot.timeWindowEnd
    · rw [if_pos ⟨written,running⟩]
      by_cases away : (lead,found.1) ∈ absent
      · cases known : resolved.lookup lead <;> simp [gather,offer,known,running,away]
      · cases known : resolved.lookup lead <;> simp [gather,offer,known,running,away]
    · simp [running,gather]

theorem resolveLeave_gathers (absent : List (String × Int)) (today : Int) (resolved : Resolved) (lead : String) :
    resolveLeave absent today resolved lead = gather resolved (if (lead,today) ∈ absent then [(lead,onApprovedLeave)] else []) := by
  unfold resolveLeave
  by_cases away : (lead,today) ∈ absent
  · cases known : resolved.lookup lead <;> simp [away,gather,offer,known]
  · simp [away,gather]

theorem resolveStation_gathers (resolved : Resolved) (person : StaffUser) :
    resolveStation resolved person = gather resolved [(person.id,stationed person)] := by
  unfold resolveStation
  cases known : resolved.lookup person.id <;> simp [gather,offer,known]

-- What the queries bring back.
theorem running_dates {day : Int} {start finish : Time} (running : covers instant day start finish = true) :
    day = dateOf instant-1 ∨ day = dateOf instant := by
  unfold covers windowSpan combine at running
  unfold dateOf
  have later := start.isLt
  have later' := finish.isLt
  simp only [decide_eq_true_eq] at running
  split at running <;> omega

theorem mem_runningDays {unresolved : List String} {yesterday today : Int} {day : TimedDay} :
    day ∈ runningDays order db instant unresolved yesterday today ↔ day ∈ db.ledger.filterMap timedDay ∧
      ((∃ id ∈ unresolved, day.row.activeLeadId = some id ∨ day.row.substituteLeadId = some id) ∧
      (day.row.targetDate = yesterday ∨ day.row.targetDate = today)) ∧ covers instant day.row.targetDate day.start day.finish = true := by
  unfold runningDays
  rw [List.mem_filter,List.mem_insertionSort,(order.days_perm _).mem_iff,List.mem_filter,decide_eq_true_eq,and_assoc]
  have named : (day.row.activeLeadId.any (fun lead => lead ∈ unresolved) ∨ day.row.substituteLeadId.any (fun cover => cover ∈ unresolved)) ↔
      ∃ id ∈ unresolved, day.row.activeLeadId = some id ∨ day.row.substituteLeadId = some id := by
    cases day.row.activeLeadId <;> cases day.row.substituteLeadId <;> simp [and_or_left,exists_or]
  rw [named]

theorem runningDays_sorted (unresolved : List String) (yesterday today : Int) :
    (runningDays order db instant unresolved yesterday today).Pairwise (fun a b => dayRank a ≤ dayRank b) :=
  (List.pairwise_insertionSort _ _).filter _

theorem activityCodes_lookup {running : List TimedDay} {day : TimedDay} (member : day ∈ running) :
    ((activityCodes db running).lookup day.row.activityId).getD "a session" = activityCode db day.row.activityId := by
  have listed : day.row.activityId ∈ running.map (fun day => day.row.activityId) := List.mem_map_of_mem member
  unfold activityCodes activityCode Database.activity?
  congr 1
  induction db.activities with
  | nil => rfl
  | cons activity rest ih =>
    by_cases same : activity.id = day.row.activityId
    · rw [List.filter_cons_of_pos (by simpa [same] using listed),List.find?_cons_of_pos (by simpa using same)]
      simp [same]
    · rw [List.find?_cons_of_neg (by simpa using same),← ih]
      have other : (day.row.activityId == activity.id) = false := by simpa using fun equal => same equal.symm
      rw [List.filter_cons]
      split
      · rw [List.map_cons,List.lookup_cons,other]
      · rfl

theorem mem_slotDates {unresolved : List String} {yesterday today : Int} {found : Int × BookedSlot} :
    found ∈ slotDates cal order db unresolved yesterday today ↔ (∃ id ∈ unresolved, found.2.slot.primaryLeadId = some id) ∧
      Planned cal db found.2 found.1 ∧ yesterday ≤ found.1 ∧ found.1 ≤ today := by
  unfold slotDates Planned within
  simp only [List.mem_flatMap,(order.slots_perm _).mem_iff,List.mem_filter,List.mem_map,mem_occurrences,decide_eq_true_eq,
    Option.any_eq_true]
  constructor
  · rintro ⟨booked,⟨opened,⟨lead,named,asked⟩,_⟩,day,⟨falls,low,high⟩,rfl⟩
    have inside : booked.cycle.dateBoundsStart ≤ day ∧ day ≤ booked.cycle.dateBoundsEnd := by omega
    exact ⟨⟨lead,asked,named⟩,⟨opened,falls,inside⟩,by omega,by omega⟩
  · rintro ⟨⟨lead,asked,named⟩,⟨opened,falls,inside⟩,low,high⟩
    exact ⟨found.2,⟨opened,⟨lead,named,asked⟩,by omega⟩,found.1,⟨falls,by omega⟩,rfl⟩

theorem mem_generatedDates {found : List (Int × BookedSlot)} {yesterday today day : Int} {slotId : Nat} :
    (slotId,day) ∈ generatedDates db found yesterday today ↔ slotId ∈ found.map (fun item => item.2.slot.id) ∧
      (day = yesterday ∨ day = today) ∧ hasDay db slotId day = true := by
  unfold generatedDates hasDay
  simp only [List.mem_filterMap,Option.bind_eq_some_iff,List.any_eq_true,decide_eq_true_eq]
  constructor
  · rintro ⟨row,stored,slot,of,listed⟩
    split at listed
    · rename_i asked
      cases listed
      exact ⟨asked.1,asked.2,row,stored,of,rfl⟩
    · cases listed
  · rintro ⟨listed,near,row,stored,of,rfl⟩
    exact ⟨row,stored,slotId,of,if_pos ⟨listed,near⟩⟩

theorem mem_absentDates {unresolved : List String} {yesterday today day : Int} (near : yesterday ≤ today) {id : String} :
    (id,day) ∈ absentDates db unresolved yesterday today ↔ id ∈ unresolved ∧ (day = yesterday ∨ day = today) ∧
      approvedLeave db (some id) day = true := by
  unfold absentDates approvedLeave
  simp only [List.mem_flatMap,List.mem_filter,List.mem_map,List.any_eq_true,decide_eq_true_eq,Prod.mk.injEq,List.mem_cons,
    List.not_mem_nil,or_false,Option.some.injEq]
  constructor
  · rintro ⟨log,⟨stored,asked,_,_,approved⟩,date,⟨listed,low,high⟩,rfl,rfl⟩
    exact ⟨asked,listed,log,stored,rfl,low,high,approved⟩
  · rintro ⟨asked,listed,log,stored,rfl,low,high,approved⟩
    exact ⟨log,⟨stored,asked,by omega,by omega,approved⟩,day,⟨listed,low,high⟩,rfl,rfl⟩

-- The windows of one person, whoever else was asked about.
theorem mem_daysOf (cal : Recurrence) {id : String} {day : TimedDay} : day ∈ daysOf db instant id ↔ Running cal db instant id (.day day) := by
  unfold daysOf Running
  rw [List.mem_insertionSort,List.mem_filter,decide_eq_true_eq]

theorem mem_datesOf {id : String} {found : Int × BookedSlot} :
    found ∈ datesOf cal db instant id ↔ Running cal db instant id (.slotDate found.1 found.2) := by
  unfold datesOf Running Planned
  rw [List.mem_insertionSort]
  simp only [List.mem_flatMap,List.mem_map,List.mem_filter,List.mem_cons,List.not_mem_nil,or_false,decide_eq_true_eq,occursOn_exact]
  constructor
  · rintro ⟨booked,opened,day,⟨_,falls,inside,free,lead,running⟩,rfl⟩
    exact ⟨⟨opened,falls,inside⟩,free,lead,running⟩
  · rintro ⟨⟨opened,falls,inside⟩,free,lead,running⟩
    exact ⟨found.2,opened,found.1,⟨running_dates running,falls,inside,free,lead,running⟩,rfl⟩

theorem told_concerns {code : String} {day : TimedDay} {id : String} (told : ((dayTold db code day).lookup id).isSome) :
    day.row.activeLeadId = some id ∨ day.row.substituteLeadId = some id := by
  obtain ⟨answer,listed,named⟩ := List.lookup_isSome_iff.mp told
  have same : id = answer.1 := by simpa using named
  rcases List.mem_append.mp listed with cover | lead
  · unfold coverTold at cover
    split at cover
    · obtain ⟨cover,there,rfl⟩ := List.mem_map.mp cover
      exact .inr (same ▸ by simpa using there)
    · cases cover
  · unfold leadTold at lead
    split_ifs at lead
    · obtain ⟨lead,there,rfl⟩ := List.mem_map.mp lead
      exact .inl (same ▸ by simpa using there)
    · obtain ⟨lead,there,rfl⟩ := List.mem_map.mp lead
      exact .inl (same ▸ by simpa using there)
    · cases lead

theorem days_tier (order : ReadOrder) {unresolved : List String} {id : String} (asked : id ∈ unresolved) (untied : Untied cal db instant id) (resolved : Resolved) :
    let running := runningDays order db instant unresolved (dateOf instant-1) (dateOf instant)
    (running.foldl (resolveDay db (activityCodes db running) unresolved) resolved).lookup id =
      (resolved.lookup id).or ((daysOf db instant id).findSome? (fun day =>
        (dayTold db (activityCode db day.row.activityId) day).lookup id)) := by
  intro running
  rw [resolveDays_lookup asked]
  congr 1
  have listed : ∀ {day}, day ∈ running → (day.row.activeLeadId = some id ∨ day.row.substituteLeadId = some id) →
      Running cal db instant id (.day day) := by
    intro day member concerns
    obtain ⟨stored,_,now⟩ := mem_runningDays.mp member
    exact ⟨stored,concerns,now⟩
  have fetched : ∀ {day}, day ∈ daysOf db instant id → day ∈ running := by
    intro day member
    obtain ⟨stored,concerns,now⟩ := (mem_daysOf cal).mp member
    exact mem_runningDays.mpr ⟨stored,⟨⟨id,asked,concerns⟩,running_dates now⟩,now⟩
  have coded : ∀ day ∈ running, (dayTold db (((activityCodes db running).lookup day.row.activityId).getD "a session") day).lookup id =
      (dayTold db (activityCode db day.row.activityId) day).lookup id := fun day member => by rw [activityCodes_lookup member]
  rw [findSome_congr coded]
  refine findSome_sorted dayRank (runningDays_sorted _ _ _) (List.pairwise_insertionSort _ _) ?_ ?_
  · intro day told
    exact ⟨fun member => (mem_daysOf cal).mpr (listed member (told_concerns told)),fetched⟩
  · intro a left b right told told' same
    exact untied.1 a b (listed left (told_concerns told)) (listed right (told_concerns told')) same

theorem slotTold_lookup (generated : List (Nat × Int)) (absent : List (String × Int)) (found : Int × BookedSlot) (id : String) :
    (slotTold db instant generated absent found).lookup id =
      if (found.2.slot.id,found.1) ∉ generated ∧ covers instant found.1 found.2.slot.timeWindowStart found.2.slot.timeWindowEnd ∧
        found.2.slot.primaryLeadId = some id then
        some (if (id,found.1) ∈ absent then onApprovedLeave
          else leading (targetRoomIdentifier db found.2.slot.resourceId) found.2.activity.activityCode)
      else none := by
  unfold slotTold
  by_cases open_ : (found.2.slot.id,found.1) ∉ generated ∧ covers instant found.1 found.2.slot.timeWindowStart found.2.slot.timeWindowEnd
  · rw [if_pos open_]
    cases found.2.slot.primaryLeadId with
    | none => simp
    | some lead =>
      by_cases same : id = lead
      · subst same
        simp [open_.1,open_.2]
      · have other : (id == lead) = false := by simpa using same
        have other' : ¬ lead = id := fun equal => same equal.symm
        simp [List.lookup_cons,other,other']
  · rw [if_neg open_,if_neg (fun all => open_ ⟨all.1,all.2.1⟩)]
    rfl

theorem dates_tier {unresolved : List String} {id : String} (asked : id ∈ unresolved) (untied : Untied cal db instant id) (resolved : Resolved) :
    let found := slotDates cal order db unresolved (dateOf instant-1) (dateOf instant)
    ((found.insertionSort (fun a b => slotRank a ≤ slotRank b)).foldl (resolveSlot db instant
      (generatedDates db found (dateOf instant-1) (dateOf instant)) (absentDates db unresolved (dateOf instant-1) (dateOf instant))) resolved).lookup id =
      (resolved.lookup id).or ((datesOf cal db instant id).findSome? (fun date => some (dateAnswer db date))) := by
  intro found
  rw [steps_gather _ (resolveSlot_gathers _ _),gather_lookup,lookup_flatMap]
  congr 1
  have near : dateOf instant-1 ≤ dateOf instant := by omega
  have listed : ∀ {item}, item ∈ found → ((slotTold db instant (generatedDates db found (dateOf instant-1) (dateOf instant))
      (absentDates db unresolved (dateOf instant-1) (dateOf instant)) item).lookup id).isSome →
      Running cal db instant id (.slotDate item.1 item.2) := by
    intro item member told
    rw [slotTold_lookup] at told
    split at told
    · rename_i open_
      obtain ⟨unwritten,now,lead⟩ := open_
      refine ⟨(mem_slotDates.mp member).2.1,?_,lead,now⟩
      have missing := fun there => unwritten (mem_generatedDates.mpr ⟨List.mem_map_of_mem member,running_dates now,there⟩)
      simpa using missing
    · cases told
  have fetched : ∀ {item}, item ∈ datesOf cal db instant id → item ∈ found := by
    intro item member
    obtain ⟨planned,_,lead,now⟩ := mem_datesOf.mp member
    have dates := running_dates now
    exact mem_slotDates.mpr ⟨⟨id,asked,lead⟩,planned,by omega,by omega⟩
  have alone : ∀ item ∈ datesOf cal db instant id, (slotTold db instant (generatedDates db found (dateOf instant-1) (dateOf instant))
      (absentDates db unresolved (dateOf instant-1) (dateOf instant)) item).lookup id = some (dateAnswer db item) := by
    intro item member
    obtain ⟨_,unwritten,lead,now⟩ := mem_datesOf.mp member
    rw [slotTold_lookup,if_pos ⟨fun there => by simp [(mem_generatedDates.mp there).2.2] at unwritten,now,lead⟩]
    unfold dateAnswer
    rw [lead]
    simp only [mem_absentDates near,asked,running_dates now,true_and]
  rw [← findSome_congr alone]
  refine findSome_sorted slotRank (List.pairwise_insertionSort _ _) (List.pairwise_insertionSort _ _) ?_ ?_
  · intro item told
    rw [List.mem_insertionSort]
    exact ⟨fun member => mem_datesOf.mpr (listed member told),fetched⟩
  · intro a left b right told told' same
    rw [List.mem_insertionSort] at left right
    exact untied.2 a b (listed left told) (listed right told') same

theorem leave_tier {unresolved : List String} {id : String} (asked : id ∈ unresolved) (resolved : Resolved) :
    (unresolved.foldl (resolveLeave (absentDates db unresolved (dateOf instant-1) (dateOf instant)) (dateOf instant)) resolved).lookup id =
      (resolved.lookup id).or (if approvedLeave db (some id) (dateOf instant) then some onApprovedLeave else none) := by
  rw [steps_gather _ (resolveLeave_gathers _ _),gather_lookup,lookup_flatMap]
  congr 1
  have near : dateOf instant-1 ≤ dateOf instant := by omega
  have own : ∀ lead, (if (lead,dateOf instant) ∈ absentDates db unresolved (dateOf instant-1) (dateOf instant) then
      [(lead,onApprovedLeave)] else []).lookup id = if lead = id ∧ approvedLeave db (some id) (dateOf instant) then some onApprovedLeave else none := by
    intro lead
    by_cases same : id = lead
    · subst same
      simp only [mem_absentDates near,asked,or_true,true_and]
      split <;> simp
    · have other : (id == lead) = false := by simpa using same
      have other' : ¬ lead = id := fun equal => same equal.symm
      split <;> simp [List.lookup_cons,other,other']
  simp only [own]
  by_cases away : approvedLeave db (some id) (dateOf instant)
  · rw [if_pos away]
    refine findSome_one ⟨id,asked,by simp [away]⟩ ?_
    intro lead _ answer told
    split at told
    · exact (Option.some.inj told).symm
    · cases told
  · rw [if_neg away]
    exact List.findSome?_eq_none_iff.mpr (fun lead _ => if_neg (fun all => away all.2))

theorem station_tier {staff : List StaffUser} {person : StaffUser} (member : person ∈ staff)
    (rows : ∀ a ∈ staff, ∀ b ∈ staff, a.id = b.id → a = b) (resolved : Resolved) :
    (staff.foldl resolveStation resolved).lookup person.id = (resolved.lookup person.id).or (some (stationed person)) := by
  rw [steps_gather (fun person => [(person.id,stationed person)]) resolveStation_gathers,gather_lookup,lookup_flatMap]
  congr 1
  refine findSome_one ⟨person,member,by simp⟩ ?_
  intro other there answer told
  by_cases same : person.id = other.id
  · rw [rows person member other there same] at told ⊢
    exact (Option.some.inj (told.symm.trans List.lookup_cons_self)).symm ▸ rfl
  · have different : (person.id == other.id) = false := by simpa using same
    rw [List.lookup_cons,different] at told
    cases told

theorem unanswered {unresolved : List String} {resolved : Resolved} {id : String} (asked : id ∈ unresolved)
    (unknown : resolved.lookup id = none) : id ∈ unresolved.filter (fun id => (resolved.lookup id).isNone) :=
  List.mem_filter.mpr ⟨asked,by rw [unknown]; rfl⟩

-- Everybody's answer is the one they would get alone.
theorem determine_exact {staff : List StaffUser} {person : StaffUser} (member : person ∈ staff)
    (rows : ∀ a ∈ staff, ∀ b ∈ staff, a.id = b.id → a = b) (untied : Untied cal db instant person.id) :
    (determineStaffCurrentStates cal order db redisCache instant staff).lookup person.id =
      some (whereIs cal db redisCache instant person) := by
  have some_ : staff.isEmpty = false := by
    cases staff with
    | nil => cases member
    | cons => rfl
  have listed : person.id ∈ staff.map StaffUser.id := List.mem_map_of_mem member
  unfold determineStaffCurrentStates whereIs
  dsimp only
  rw [some_,if_neg Bool.false_ne_true,station_tier member rows]
  have overridden := manualOverrides_exact redisCache listed
  cases own : override redisCache person.id with
  | some text =>
    rw [own] at overridden
    rw [steps_gather _ (resolveLeave_gathers _ _),gather_lookup,steps_gather _ (resolveSlot_gathers _ _),gather_lookup,
      steps_gather _ (resolveDay_gathers _ _),gather_lookup,overridden]
    rfl
  | none =>
    rw [own] at overridden
    have asked : person.id ∈ (staff.map StaffUser.id).filter (fun id => ((manualOverrides redisCache staff).lookup id).isNone) :=
      unanswered listed overridden
    have days := days_tier order asked untied (manualOverrides redisCache staff)
    dsimp only at days
    rw [overridden,Option.none_or] at days
    cases first : (daysOf db instant person.id).findSome? (fun day => (dayTold db (activityCode db day.row.activityId) day).lookup person.id) with
    | some place =>
      rw [first] at days
      rw [steps_gather _ (resolveLeave_gathers _ _),gather_lookup,steps_gather _ (resolveSlot_gathers _ _),gather_lookup,days]
      rfl
    | none =>
      rw [first] at days
      have asked_still := unanswered asked days
      rw [leave_tier asked_still,dates_tier asked_still untied,days]
      simp only [Option.none_or]
      cases (datesOf cal db instant person.id).findSome? (fun date => some (dateAnswer db date)) <;>
        by_cases away : approvedLeave db (some person.id) (dateOf instant) <;> simp [away]

end ChronosLedger
