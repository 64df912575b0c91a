import ChronosLedger.AcceptedRequests
import ChronosLedger.Leave

namespace ChronosLedger.Leave

variable {cal : Recurrence} {db next : Database} {log : ReverseRsvpLog} {state : LogVerificationState} {lead agent : String} {day : Int}

theorem request_at (distinct : (db.absences.map ReverseRsvpLog.id).Nodup) (there : log ∈ db.absences) :
    db.absences.find? (fun other => other.id = log.id) = some log := by
  cases found : db.absences.find? (fun other => other.id = log.id) with
  | none => simpa using List.find?_eq_none.mp found log there
  | some other =>
    have same : other.id = log.id := by simpa using List.find?_some found
    rw [List.inj_on_of_nodup_map distinct (List.mem_of_find?_eq_some found) there same]

def decided (log : ReverseRsvpLog) (agent : String) (state : LogVerificationState) (other : ReverseRsvpLog) : ReverseRsvpLog :=
  if other.id = log.id then {other with approvalState := state,authorizedByUserId := some agent} else other

theorem decided_own : decided log agent state log = {log with approvalState := state,authorizedByUserId := some agent} := if_pos rfl

theorem decided_other {other : ReverseRsvpLog} (apart : other.id ≠ log.id) : decided log agent state other = other := if_neg apart

theorem decided_id (log other : ReverseRsvpLog) : (decided log agent state other).id = other.id := by
  unfold decided
  split <;> rfl

theorem commitAbsenceOverride_parts (distinct : (db.absences.map ReverseRsvpLog.id).Nodup) (there : log ∈ db.absences) :
    commitAbsenceOverride db log.id agent state =
      {db with absences := db.absences.map (decided log agent state),ledger := db.ledger.map (leaveDay log state)} := by
  unfold commitAbsenceOverride
  rw [request_at distinct there]
  rfl

theorem commitAbsenceOverride_unknown {logId : Nat} (unknown : ∀ log ∈ db.absences, log.id ≠ logId) :
    commitAbsenceOverride db logId agent state = db := by
  unfold commitAbsenceOverride
  have none_ : db.absences.find? (fun other => other.id = logId) = none :=
    List.find?_eq_none.mpr (fun other member => by simpa using unknown other member)
  rw [none_]

theorem commitAbsenceOverride_ids {logId : Nat} (distinct : (db.absences.map ReverseRsvpLog.id).Nodup) :
    (commitAbsenceOverride db logId agent state).absences.map ReverseRsvpLog.id = db.absences.map ReverseRsvpLog.id := by
  by_cases known : ∃ log ∈ db.absences, log.id = logId
  · obtain ⟨log,there,rfl⟩ := known
    have same : ReverseRsvpLog.id ∘ decided log agent state = ReverseRsvpLog.id := funext (decided_id log)
    rw [commitAbsenceOverride_parts distinct there,List.map_map,same]
  · rw [commitAbsenceOverride_unknown (fun log there same => known ⟨log,there,same⟩)]

theorem decision_onLeave (distinct : (db.absences.map ReverseRsvpLog.id).Nodup) (there : log ∈ db.absences) :
    OnLeave (commitAbsenceOverride db log.id agent state) lead day ↔ state = .verifiedApproved ∧ Covers log lead day ∨
      ∃ other ∈ db.absences, other.id ≠ log.id ∧ other.approvalState = .verifiedApproved ∧ Covers other lead day := by
  rw [commitAbsenceOverride_parts distinct there]
  constructor
  · intro ⟨after,member,approved,covers⟩
    obtain ⟨other,old,rfl⟩ := List.mem_map.mp member
    by_cases same : other.id = log.id
    · cases List.inj_on_of_nodup_map distinct old there same
      rw [decided_own] at approved covers
      exact .inl ⟨approved,covers⟩
    · rw [decided_other same] at approved covers
      exact .inr ⟨other,old,same,approved,covers⟩
  · intro either
    rcases either with ⟨approved,covers⟩ | ⟨other,old,apart,approved,covers⟩
    · refine ⟨decided log agent state log,List.mem_map_of_mem there,?_⟩
      rw [decided_own]
      exact ⟨approved,covers⟩
    · refine ⟨decided log agent state other,List.mem_map_of_mem old,?_⟩
      rw [decided_other apart]
      exact ⟨approved,covers⟩

theorem leaveDay_outside {row : DailyLedger} (its : row.activeLeadId = some lead) (outside : ¬ Covers log lead row.targetDate) :
    leaveDay log state row = row := by
  unfold leaveDay
  refine if_neg (fun inside => outside ?_)
  rw [its] at inside
  exact ⟨(Option.some.inj inside.1).symm,inside.2⟩

theorem leaveDay_inside {row : DailyLedger} (its : row.activeLeadId = some lead) (inside : Covers log lead row.targetDate) :
    leaveDay log state row = if state = .verifiedApproved then {row with operationalState := .onLeave,substituteLeadId := none}
      else if row.operationalState = .onLeave then {row with operationalState := .scheduled} else row := by
  unfold leaveDay
  exact if_pos ⟨by rw [its,inside.1],inside.2⟩

theorem leaveDay_lead (log : ReverseRsvpLog) (state : LogVerificationState) (row : DailyLedger) :
    (leaveDay log state row).activeLeadId = row.activeLeadId := by
  unfold leaveDay
  split
  · split
    · rfl
    · split <;> rfl
  · rfl

theorem leaveDay_date (log : ReverseRsvpLog) (state : LogVerificationState) (row : DailyLedger) :
    (leaveDay log state row).targetDate = row.targetDate := by
  unfold leaveDay
  split
  · split
    · rfl
    · split <;> rfl
  · rfl

-- Without the other requests, the days of the range are on leave exactly when
-- the decision is an approval; outside the range nothing changes hands.
theorem RowAgrees.decided {row : DailyLedger} (distinct : (db.absences.map ReverseRsvpLog.id).Nodup) (there : log ∈ db.absences)
    (agrees : RowAgrees db row) (member : row ∈ db.ledger) (spares : state ≠ .verifiedApproved → ¬ TakesBack db log) :
    RowAgrees (commitAbsenceOverride db log.id agent state) (leaveDay log state row) := by
  intro lead its follows
  rw [leaveDay_lead] at its
  rw [leaveDay_date,decision_onLeave distinct there]
  by_cases inside : Covers log lead row.targetDate
  · rw [leaveDay_inside its inside] at follows ⊢
    split
    · rename_i approved
      simp [approved,inside]
    · rename_i refused
      have alone : row.operationalState = .onLeave → ¬ ∃ other ∈ db.absences, other.id ≠ log.id ∧
          other.approvalState = .verifiedApproved ∧ Covers other lead row.targetDate := by
        intro away ⟨other,old,apart,approved,covers⟩
        have mine := inside.1
        subst mine
        exact spares refused ⟨row,member,its,away,inside,other,old,apart,approved,covers⟩
      split
      · rename_i away
        simpa [refused] using alone away
      · rename_i home
        rw [if_neg refused,if_neg home] at follows
        have free : ¬ OnLeave db lead row.targetDate := fun held => home ((agrees lead its follows).mpr held)
        have none_ : ¬ ∃ other ∈ db.absences, other.id ≠ log.id ∧ other.approvalState = .verifiedApproved ∧ Covers other lead row.targetDate :=
          fun ⟨other,old,_,approved,covers⟩ => free ⟨other,old,approved,covers⟩
        simpa [refused,home] using none_
  · rw [leaveDay_outside its inside] at follows ⊢
    refine (agrees lead its follows).trans ⟨?_,?_⟩
    · intro ⟨other,old,approved,covers⟩
      refine .inr ⟨other,old,fun same => ?_,approved,covers⟩
      cases List.inj_on_of_nodup_map distinct old there same
      exact inside covers
    · intro either
      rcases either with ⟨_,covers⟩ | ⟨other,old,_,approved,covers⟩
      · exact absurd covers inside
      · exact ⟨other,old,approved,covers⟩

theorem Agrees.decided {logId : Nat} (distinct : (db.absences.map ReverseRsvpLog.id).Nodup) (agrees : Agrees db)
    (spares : SparesOthers db (.commitAbsenceOverride logId agent state)) : Agrees (commitAbsenceOverride db logId agent state) := by
  by_cases known : ∃ log ∈ db.absences, log.id = logId
  · obtain ⟨log,there,rfl⟩ := known
    intro row member
    rw [commitAbsenceOverride_parts distinct there] at member
    obtain ⟨before,old,rfl⟩ := List.mem_map.mp member
    exact (agrees before old).decided distinct there old (fun refused => spares refused log there rfl)
  · rw [commitAbsenceOverride_unknown (fun log there same => known ⟨log,there,same⟩)]
    exact agrees

-- The day given back is one the other request still covers.
theorem taken_back {logId : Nat} (distinct : (db.absences.map ReverseRsvpLog.id).Nodup)
    (takes : ¬ SparesOthers db (.commitAbsenceOverride logId agent state)) : ¬ Agrees (commitAbsenceOverride db logId agent state) := by
  unfold SparesOthers at takes
  push Not at takes
  obtain ⟨refused,log,there,rfl,row,member,its,away,inside,other,old,apart,approved,covers⟩ := takes
  intro agrees
  have after : leaveDay log state row = {row with operationalState := .scheduled} := by
    rw [leaveDay_inside its inside,if_neg refused,if_pos away]
  have stored : leaveDay log state row ∈ (commitAbsenceOverride db log.id agent state).ledger := by
    rw [commitAbsenceOverride_parts distinct there]
    exact List.mem_map_of_mem member
  have agreed := agrees _ stored log.submittingUserId (by rw [leaveDay_lead,its]) (by rw [after]; rfl)
  rw [leaveDay_date,decision_onLeave distinct there,after] at agreed
  exact absurd (agreed.mpr (.inr ⟨other,old,apart,approved,covers⟩)) nofun

theorem declared_parts {payload : ReverseRsvpCreate} {user : User} (declared : act cal db (.routeAbsenceDeclaration payload user) = some next) :
    ∃ log : ReverseRsvpLog, log.id = nextId (db.absences.map ReverseRsvpLog.id) ∧ log.approvalState = .pendingVerification ∧
      next = {db with absences := db.absences ++ [log]} := by
  dsimp only [act] at declared
  split at declared
  · rename_i after log done
    cases declared
    obtain ⟨rfl,fresh,pending⟩ := routeAbsenceDeclaration_parts done
    exact ⟨log,fresh,pending,rfl⟩
  · cases declared

theorem pending_onLeave (pending : log.approvalState = .pendingVerification) :
    OnLeave {db with absences := db.absences ++ [log]} lead day ↔ OnLeave db lead day := by
  unfold OnLeave
  simp [or_and_right,exists_or,pending]

theorem distinct_preserved {op : Operation} (distinct : (db.absences.map ReverseRsvpLog.id).Nodup) (taken : Steps cal db op next) :
    (next.absences.map ReverseRsvpLog.id).Nodup := by
  cases op with
  | newDay => cases Option.some.inj taken; exact distinct
  | routeAbsenceDeclaration payload user =>
    obtain ⟨log,fresh,_,rfl⟩ := declared_parts taken
    have snoc := nodup_snoc distinct (nextId_notMem _)
    simpa [fresh] using snoc
  | commitAbsenceOverride logId agent state =>
    cases Option.some.inj taken
    rwa [commitAbsenceOverride_ids distinct]
  | generateDailyLedgerEntries targetDate =>
    cases Option.some.inj taken
    rwa [generateDailyLedgerEntries,generateSlots_absences]
  | materializeHorizon settings cycleId =>
    cases Option.some.inj taken
    rwa [materializeHorizon_absences]

theorem Agrees.preserved {op : Operation} (distinct : (db.absences.map ReverseRsvpLog.id).Nodup) (agrees : Agrees db)
    (spares : SparesOthers db op) (taken : Steps cal db op next) : Agrees next := by
  cases op with
  | newDay => cases Option.some.inj taken; exact agrees.frame rfl rfl
  | routeAbsenceDeclaration payload user =>
    obtain ⟨log,_,pending,rfl⟩ := declared_parts taken
    intro row member lead its follows
    rw [pending_onLeave pending]
    exact agrees row member lead its follows
  | commitAbsenceOverride => cases Option.some.inj taken; exact agrees.decided distinct spares
  | generateDailyLedgerEntries => cases Option.some.inj taken; exact agrees.generated _ _
  | materializeHorizon => cases Option.some.inj taken; exact agrees.materialized _ _

theorem decided_swap {one two : ReverseRsvpLog} {agent' : String} {state' : LogVerificationState} (apart : one.id ≠ two.id)
    (log : ReverseRsvpLog) : decided two agent' state' (decided one agent state log) = decided one agent state (decided two agent' state' log) := by
  by_cases first : log.id = one.id
  · have second : log.id ≠ two.id := fun same => apart (first.symm.trans same)
    have later : (decided one agent state log).id ≠ two.id := by rwa [decided_id]
    rw [decided_other second,decided_other later]
  · have later : (decided two agent' state' log).id ≠ one.id := by rwa [decided_id]
    rw [decided_other first,decided_other later]

-- Requests that share no day of a lead.
def Independent (one two : ReverseRsvpLog) : Prop := ∀ lead day, Covers one lead day → ¬ Covers two lead day

theorem leaveDay_swap {one two : ReverseRsvpLog} {state' : LogVerificationState} (independent : Independent one two) (row : DailyLedger) :
    leaveDay two state' (leaveDay one state row) = leaveDay one state (leaveDay two state' row) := by
  cases its : row.activeLeadId with
  | none => simp [leaveDay,its]
  | some lead =>
    by_cases first : Covers one lead row.targetDate
    · have second := independent lead _ first
      have later : ¬ Covers two lead (leaveDay one state row).targetDate := by rwa [leaveDay_date]
      rw [leaveDay_outside its second,leaveDay_outside (by rwa [leaveDay_lead]) later]
    · have later : ¬ Covers one lead (leaveDay two state' row).targetDate := by rwa [leaveDay_date]
      rw [leaveDay_outside its first,leaveDay_outside (by rwa [leaveDay_lead]) later]

theorem decisions_commute {one two : ReverseRsvpLog} {agent' : String} {state' : LogVerificationState}
    (distinct : (db.absences.map ReverseRsvpLog.id).Nodup) (first : one ∈ db.absences) (second : two ∈ db.absences)
    (apart : one.id ≠ two.id) (independent : Independent one two) :
    commitAbsenceOverride (commitAbsenceOverride db one.id agent state) two.id agent' state' =
      commitAbsenceOverride (commitAbsenceOverride db two.id agent' state') one.id agent state := by
  have still {log other : ReverseRsvpLog} {agent : String} {state : LogVerificationState} (there : log ∈ db.absences)
      (known : other ∈ db.absences) (apart : other.id ≠ log.id) : other ∈ (commitAbsenceOverride db log.id agent state).absences := by
    rw [commitAbsenceOverride_parts distinct there]
    exact List.mem_map.mpr ⟨other,known,decided_other apart⟩
  have kept {log : ReverseRsvpLog} {agent : String} {state : LogVerificationState} :
      ((commitAbsenceOverride db log.id agent state).absences.map ReverseRsvpLog.id).Nodup := by
    rwa [commitAbsenceOverride_ids distinct]
  rw [commitAbsenceOverride_parts kept (still first second apart.symm),commitAbsenceOverride_parts kept (still second first apart),
    commitAbsenceOverride_parts distinct first,commitAbsenceOverride_parts distinct second]
  simp only [List.map_map]
  congr 1
  · exact List.map_congr_left (fun row _ => leaveDay_swap independent row)
  · exact List.map_congr_left (fun log _ => decided_swap apart log)

def ada : User := ⟨"ada","Ada","ada@school",.staff,some "SCI",some "registrar",false⟩

def algebra : StructuralMasterSlot := ⟨1,"FREQ=DAILY",100,clock 9 0,clock 10 0,1,some "ada",none,false⟩

def taught : Database := {staffed 100 with
  users := [registrar,ada],cycles := [⟨1,"term",90,130,true⟩],activities := [⟨1,"MATH","Mathematics","SCI",1,false⟩],slots := [algebra]}

def away (first last : Int) (ordered : first ≤ last) : Operation :=
  .routeAbsenceDeclaration ⟨first,some last,"Family",by simpa using ordered⟩ ada

def twoAbsences : List Operation :=
  [away 101 102 (by decide),away 104 105 (by decide),.commitAbsenceOverride 1 "registrar" .verifiedApproved,
    .generateDailyLedgerEntries 101,.materializeHorizon plainRuntime.settings none,.generateDailyLedgerEntries 104,
    .commitAbsenceOverride 2 "registrar" .verifiedApproved,.commitAbsenceOverride 1 "registrar" .verifiedDenied]

-- The second of two requests over one day is approved and then denied.
def overlapping : List Operation :=
  [away 101 102 (by decide),away 102 103 (by decide),.commitAbsenceOverride 1 "registrar" .verifiedApproved,
    .commitAbsenceOverride 2 "registrar" .verifiedApproved,.generateDailyLedgerEntries 102,.commitAbsenceOverride 2 "registrar" .verifiedDenied]

end ChronosLedger.Leave
