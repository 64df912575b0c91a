import ChronosLedger.Operations

-- What an answered request has done to the database.
namespace ChronosLedger

variable {cal : Recurrence} {db next : Database} {currentUser : User}

theorem createCycle_parts {payload : PlanningCycleCreate} {cycle : PlanningCycle}
    (done : createCycle db payload currentUser = .ok (next,cycle)) : next = {db with cycles := db.cycles ++ [cycle]} ∧
      cycle.id = nextId (db.cycles.map PlanningCycle.id) := by
  unfold createCycle at done
  simp only [bind_parts] at done
  obtain ⟨_,_,kept⟩ := done
  cases kept
  exact ⟨rfl,rfl⟩

-- Either the cycle was open already or none of its slots was in the way.
theorem openCycle_parts {cycleId : Nat} {message : String} (done : openCycle cal db cycleId currentUser = .ok (next,message)) :
    ∃ cycle, db.cycle? cycleId = some cycle ∧ (next = db ∨
      (slotsOfCycle db cycleId).flatMap (blockedBy cal (setCycle db {cycle with operationalStatus := true}) {cycle with operationalStatus := true})
        = [] ∧ next = setCycle db {cycle with operationalStatus := true}) := by
  unfold openCycle at done
  simp only [bind_parts,found_parts] at done
  obtain ⟨_,_,cycle,known,answered⟩ := done
  refine ⟨cycle,known,?_⟩
  split at answered
  · cases answered
    exact .inl rfl
  · simp only [bind_parts,ensure_parts] at answered
    obtain ⟨_,unblocked,kept⟩ := answered
    cases kept
    exact .inr ⟨unblocked,rfl⟩

theorem closeCycle_parts {cycleId : Nat} {sweep : CycleSweep} (done : closeCycle db cycleId currentUser = .ok (next,sweep)) :
    ∃ cycle, db.cycle? cycleId = some cycle ∧ next = dropPlans (setCycle db {cycle with operationalStatus := false})
      (aheadInCycle (setCycle db {cycle with operationalStatus := false}) cycleId) := by
  unfold closeCycle at done
  simp only [bind_parts,found_parts] at done
  obtain ⟨_,_,cycle,known,answered⟩ := done
  cases answered
  exact ⟨cycle,known,rfl⟩

theorem cloneCycleOfferings_parts {oldId newId : Nat} {view : CloneView}
    (done : cloneCycleOfferings cal db oldId newId currentUser = .ok (next,view)) :
    ∃ cycle, ∃ offerings : List Activity, db.cycle? newId = some cycle ∧ cycle.operationalStatus = false ∧
      next = offerings.foldl (cloneOffering cal cycle) db := by
  unfold cloneCycleOfferings at done
  simp only [bind_parts,found_parts,ensure_parts] at done
  obtain ⟨_,_,_,_,cycle,known,_,closed,_,_,answered⟩ := done
  cases answered
  exact ⟨cycle,_,known,closed,rfl⟩

theorem createActivity_parts {payload : ActivityCreate} {activity : Activity}
    (done : createActivity db payload currentUser = .ok (next,activity)) : next = {db with activities := db.activities ++ [activity]} ∧
      activity.id = nextId (db.activities.map Activity.id) := by
  unfold createActivity at done
  simp only [bind_parts] at done
  obtain ⟨_,_,_,_,_,_,answered⟩ := done
  split at answered
  · cases answered
  · cases answered
    exact ⟨rfl,rfl⟩

theorem updateActivity_parts {activityId : Nat} {activityTitle : String} {activity : Activity}
    (done : updateActivity db activityId activityTitle currentUser = .ok (next,activity)) :
    ∃ old, db.activity? activityId = some old ∧ next = setActivity db {old with activityTitle := activityTitle} := by
  unfold updateActivity at done
  simp only [bind_parts,found_parts] at done
  obtain ⟨_,_,old,known,_,_,_,_,answered⟩ := done
  cases answered
  exact ⟨old,known,rfl⟩

theorem retireActivity_parts {activityId : Nat} {result : RetireResult}
    (done : retireActivity db activityId currentUser = .ok (next,result)) : ∃ activity, db.activity? activityId = some activity ∧
      next = dropPlans {setActivity db {activity with retired := true} with slots := db.slots.map (retireSlotsOf activityId)}
        (aheadOfActivity {setActivity db {activity with retired := true} with slots := db.slots.map (retireSlotsOf activityId)} activityId) := by
  unfold retireActivity at done
  simp only [bind_parts,found_parts] at done
  obtain ⟨_,_,activity,known,_,_,_,_,answered⟩ := done
  cases answered
  exact ⟨activity,known,rfl⟩

theorem retireMasterSlot_parts {slotId : Nat} {result : RetireResult}
    (done : retireMasterSlot db slotId currentUser = .ok (next,result)) : ∃ slot, db.slot? slotId = some slot ∧
      next = dropPlans (setSlot db {slot with retired := true}) (plannedFor (setSlot db {slot with retired := true}) slot.id) := by
  unfold retireMasterSlot at done
  simp only [bind_parts,found_parts] at done
  obtain ⟨_,_,slot,known,_,_,_,_,_,_,answered⟩ := done
  cases answered
  exact ⟨slot,known,rfl⟩

theorem markAttendance_parts {payload : AttendanceMarkRequest} {fence : Answer Unit} {answered : Unit}
    (done : markAttendance db payload fence currentUser = .ok (next,answered)) :
    ∃ ledgerId, next = writeMarks db ledgerId [payload] currentUser.id := by
  unfold markAttendance at done
  rw [bind_parts] at done
  obtain ⟨ledger,_,rest⟩ := done
  split at rest
  · simp only [bind_parts] at rest
    obtain ⟨_,_,_,_,_,_,kept⟩ := rest
    cases kept
    exact ⟨_,rfl⟩
  · simp only [bind_parts] at rest
    obtain ⟨_,_,_,_,kept⟩ := rest
    cases kept
    exact ⟨_,rfl⟩

theorem batchMarkAttendance_parts {ledgerInstanceId count : Nat} {records : List AttendanceMarkRequest}
    (done : batchMarkAttendance db ledgerInstanceId records currentUser = .ok (next,count)) :
    ∃ ledgerId, next = writeMarks db ledgerId records currentUser.id := by
  unfold batchMarkAttendance at done
  simp only [bind_parts] at done
  obtain ⟨ledger,_,_,_,_,_,_,_,_,_,kept⟩ := done
  cases kept
  exact ⟨_,rfl⟩

theorem createAnnotation_parts {payload : AnnotationCreate} {note : LedgerAnnotation}
    (done : createAnnotation db payload currentUser = .ok (next,note)) : next = {db with annotations := db.annotations ++ [note]} := by
  unfold createAnnotation at done
  simp only [bind_parts] at done
  obtain ⟨ledger,_,_,_,kept⟩ := done
  cases kept
  rfl

theorem routeAbsenceDeclaration_parts {payload : ReverseRsvpCreate} {log : ReverseRsvpLog}
    (done : routeAbsenceDeclaration db payload currentUser = .ok (next,log)) : next = {db with absences := db.absences ++ [log]} ∧
      log.id = nextId (db.absences.map ReverseRsvpLog.id) ∧ log.approvalState = .pendingVerification := by
  unfold routeAbsenceDeclaration at done
  simp only [bind_parts,ensure_parts] at done
  obtain ⟨_,_,kept⟩ := done
  cases kept
  exact ⟨rfl,rfl,rfl⟩

theorem decideAbsence_parts {logId : Nat} {decision : LogVerificationState} {answered : Unit}
    (done : decideAbsence db logId decision currentUser = .ok (next,answered)) :
    ∃ log, log ∈ db.absences ∧ next = commitAbsenceOverride db log.id currentUser.id decision := by
  unfold decideAbsence at done
  simp only [bind_parts,found_parts] at done
  obtain ⟨log,known,kept⟩ := done
  cases kept
  exact ⟨log,List.mem_of_find?_eq_some known,rfl⟩

end ChronosLedger
