import Mathlib.Data.List.Dedup
import ChronosLedger.Refusals

namespace ChronosLedger

def maxDepth : Nat := 4

structure Window where
  date : Int
  start : Time
  finish : Time
  deriving DecidableEq, Repr

def minute : Int := 60000000

-- The limit is the midnight that closes the last date the window touches, not
-- the one that closes the date it opens on.
def padded (window : Window) (before after : Nat) : Option Window :=
  if before = 0 ∧ after = 0 then some window else
  let span := windowSpan window.date window.start window.finish
  let paddedStarts := span.1-before*minute
  let paddedEnds := span.2+after*minute
  let lastDay := dateOf (span.2-1)
  if paddedStarts < midnight window.date ∨ paddedEnds > midnight (lastDay+1) then none
  else if timeOf paddedStarts = timeOf paddedEnds then none
  else some ⟨window.date,timeOf paddedStarts,timeOf paddedEnds⟩

structure UnmetRequirement where
  requirementId : Nat
  ownerKind : RequirementOwner
  ownerId : Nat
  target : RequirementTarget
  quantity : Nat
  enforcement : RequirementEnforcement
  message : String
  conflicts : List BusyInterval
  deriving DecidableEq, Repr

structure Holding where
  resourceId : Nat
  window : Window
  quantity : Nat
  deriving DecidableEq, Repr

-- `took` is not in the program: it names what each hold was asked for, on a dry
-- run as well, so that the two kinds of run can be compared. Nothing reads it.
structure Run where
  db : Database
  used : List Nat
  assigned : List (String × List Nat)
  children : List Reservation
  unmet : List UnmetRequirement
  took : List Holding
  deriving DecidableEq, Repr

-- What stays fixed while a walk runs. Without a parent it is a dry run: it
-- holds nothing, never refuses and lists every gap.
structure Walker where
  default : RequirementEnforcement
  parent : Option Reservation
  requesterId : Option String
  named : List Nat
  deriving DecidableEq, Repr

abbrev Problem := String × List BusyInterval

variable (cal : Recurrence) (sha256 : String → String)

def problem (db : Database) (resource : Resource) (window : Window) (quantity : Nat) : Option Problem :=
  if resource.active = false then some (s!"{resource.code} is not active",[]) else
  match resource.mode with
  | .shared => none
  | .exclusive =>
    let clashes := windowConflicts cal db resource.id window.date window.start window.finish true
    if clashes = [] then none
    else some (s!"{resource.code} is already taken for part of that window",clashes)
  | .pooled =>
    let clashes := windowConflicts cal db resource.id window.date window.start window.finish false
    if clashes ≠ [] then some (s!"{resource.code} is taken by the timetable for part of that window",clashes) else
    let (taken,holds) := poolState db resource.id window.date window.start window.finish
    if taken+quantity > (resource.capacity.getD 0 : Nat) then
      some (s!"{resource.code} does not have {quantity} unit(s) left for that window",
        occupied cal [] holds [] window.date (lastDate window.date window.start window.finish))
    else none

def enforcementOf (walker : Walker) (requirement : ResourceRequirement) : RequirementEnforcement :=
  requirement.enforcement.getD walker.default

def gap (walker : Walker) (requirement : ResourceRequirement) (found : Problem) (missing : Nat) : UnmetRequirement where
  requirementId := requirement.id
  ownerKind := requirement.ownerKind
  ownerId := requirement.ownerId
  target := requirement.target
  quantity := missing
  enforcement := enforcementOf walker requirement
  message := found.1
  conflicts := found.2

def miss (walker : Walker) (run : Run) (requirement : ResourceRequirement) (found : Problem) (missing : Nat) : Answer Run :=
  if enforcementOf walker requirement = .required ∧ walker.parent.isSome then
    .error ⟨409,.conflicts s!"requirement {requirement.id} is not met: {found.1}" found.2,.requirementUnsatisfied⟩
  else .ok {run with unmet := run.unmet ++ [gap walker requirement found missing]}

def sameKey (one two : Reservation) : Prop :=
  one.requestedById.isSome ∧ one.requestedById = two.requestedById ∧ one.idempotencyKey = two.idempotencyKey

instance (one two : Reservation) : Decidable (sameKey one two) := inferInstanceAs (Decidable (_ ∧ _ ∧ _))

def sameRef (one two : Reservation) : Prop :=
  one.requestedById.isSome ∧ one.requestedById = two.requestedById ∧ one.externalRef.isSome ∧ one.externalRef = two.externalRef

instance (one two : Reservation) : Decidable (sameRef one two) := inferInstanceAs (Decidable (_ ∧ _ ∧ _ ∧ _))

-- The two unique keys of the table. A null requester clashes with nobody.
def insertReservation (db : Database) (row : Reservation) : Answer Database :=
  if ∃ other ∈ db.reservations, sameKey other row ∨ sameRef other row then .error internalError
  else .ok {db with reservations := db.reservations ++ [row]}

def childKey (key : String) (number : Nat) : String :=
  "child-" ++ String.ofList ((sha256 key).toList.take 32) ++ "-" ++ toString number

def childFingerprint (fingerprint : String) (number : Nat) : String := sha256 (fingerprint ++ "|" ++ toString number)

def hold (walker : Walker) (run : Run) (resource : Resource) (window : Window) (quantity : Nat) : Answer Run :=
  let run := {run with used := resource.id :: run.used,took := run.took ++ [⟨resource.id,window,quantity⟩]}
  match walker.parent with
  | none => .ok run
  | some parent =>
    let number := run.children.length+1
    -- The table's own checks on a window and a quantity.
    if proper : window.finish ≠ window.start ∧ 1 ≤ quantity then do
      let child : Reservation :=
        { id := nextId (run.db.reservations.map Reservation.id),resourceId := resource.id,reservedDate := window.date
          timeWindowStart := window.start,timeWindowEnd := window.finish,purpose := parent.purpose
          requestedById := walker.requesterId,idempotencyKey := childKey sha256 parent.idempotencyKey number
          requestFingerprint := childFingerprint sha256 parent.requestFingerprint number,externalRef := none
          quantity := quantity,mode := resource.mode,status := .held,parentReservationId := some parent.id
          window := proper.1,units := proper.2 }
      let db ← insertReservation run.db child
      .ok {run with db := db,children := run.children ++ [child]}
    else .error internalError

def freeFor (db : Database) (resource : Resource) (window : Window) : Bool := (problem cal db resource window 1).isNone

def requirementsOf (db : Database) (owner : RequirementOwner × Nat) : List ResourceRequirement :=
  (db.requirements.filter (fun row => row.ownerKind = owner.1 ∧ row.ownerId = owner.2)).insertionSort (fun a b => a.id ≤ b.id)

def assignedTo (run : Run) (kind : String) : List Nat := (run.assigned.lookup kind).getD []

def popAssigned (run : Run) (kind : String) : Run :=
  {run with assigned := run.assigned.map (fun entry => if entry.1 = kind then (entry.1,entry.2.tail) else entry)}

def alreadyUsed (resource : Resource) : Problem := (s!"{resource.code} is already used by this booking",[])

-- `inner` is the walk over what a resource itself requires, one level down.
section
variable (walker : Walker) (inner : Run → Nat → Window → Answer Run)

def namedTarget (run : Run) (row : ResourceRequirement) (resource : Option Resource) (window : Window) : Answer Run :=
  match resource with
  | none => miss walker run row ("the required resource no longer exists",[]) 1
  | some resource =>
    if resource.id ∈ run.used then miss walker run row (alreadyUsed resource) 1 else
    let quantity := if resource.mode = .pooled then row.quantity else 1
    match problem cal run.db resource window quantity with
    | some found => miss walker run row found 1
    | none => do
      let run ← hold sha256 walker run resource window quantity
      inner run resource.id window

-- The resources the caller named for a kind, in the order sent. Each turn
-- either holds one or notes a gap, so the count left is what bounds the loop.
def assignedTargets (kind : String) (window : Window) : Nat → Run → Nat → List Problem → Answer (Run × Nat × List Problem)
  | 0,run,got,seen => .ok (run,got,seen)
  | left+1,run,got,seen =>
    match assignedTo run kind with
    | [] => .ok (run,got,seen)
    | id :: _ =>
      let run := popAssigned run kind
      match run.db.resource? id with
      | none => .error internalError
      | some resource =>
        let refused := if resource.id ∈ run.used then some (alreadyUsed resource) else problem cal run.db resource window 1
        match refused with
        | some found => assignedTargets kind window left run got (seen ++ [found])
        | none => do
          let run ← hold sha256 walker run resource window 1
          let run ← inner run resource.id window
          assignedTargets kind window left run (got+1) seen

def pickedTargets (row : ResourceRequirement) (window : Window) (seen : List Problem) : List Resource → Run → Nat → Answer (Run × Nat)
  | [],run,got => .ok (run,got)
  | candidate :: rest,run,got =>
    if got+seen.length ≥ row.quantity then .ok (run,got)
    else if candidate.id ∈ run.used ∨ candidate.id ∈ walker.named then pickedTargets row window seen rest run got
    else match problem cal run.db candidate window 1 with
    | some _ => pickedTargets row window seen rest run got
    | none => do
      let run ← hold sha256 walker run candidate window 1
      let run ← inner run candidate.id window
      pickedTargets row window seen rest run (got+1)

def candidatesOf (db : Database) (kind : String) : List Resource :=
  (db.resources.filter (fun r => r.resourceType = kind ∧ r.active = true)).insertionSort
    (fun a b => a.code < b.code ∨ a.code = b.code ∧ a.id ≤ b.id)

def kindMissing (row : ResourceRequirement) (kind : String) (seen : List Problem) (missing : Nat) : Problem :=
  let (message,conflicts) := match seen with
    | [] => (s!"no free {kind} resource",[])
    | first :: _ => (first.1,seen.flatMap Prod.snd)
  (s!"{message}: {missing} of {row.quantity} {kind} missing",conflicts)

def kindTargets (run : Run) (row : ResourceRequirement) (kind : String) (window : Window) : Answer Run := do
  let (run,got,seen) ← assignedTargets cal sha256 walker inner kind window row.quantity run 0 []
  let (run,got) ← pickedTargets cal sha256 walker inner row window seen (candidatesOf run.db kind) run got
  let missing := row.quantity-got
  if missing = 0 then .ok run else miss walker run row (kindMissing row kind seen missing) missing

def crossesMidnight : String := "the window with its padding would cross midnight"

def requirementStep (window : Window) (run : Run) (row : ResourceRequirement) : Answer Run :=
  match padded window row.beforeMinutes row.afterMinutes with
  | none =>
    if walker.parent.isNone then miss walker run row (crossesMidnight,[]) 1
    else .error (refuse 422 s!"requirement {row.id}: {crossesMidnight}" .invalidValue)
  | some widened =>
    match row.target with
    | .named id => namedTarget cal sha256 walker inner run row (run.db.resource? id) widened
    | .kind code => kindTargets cal sha256 walker inner run row code widened

end

def tooDeep : Problem := (s!"the chain of requirements is deeper than {maxDepth}",[])

def walkRows (step : Run → ResourceRequirement → Answer Run) (owners : List (RequirementOwner × Nat)) (run : Run) : Answer Run :=
  owners.foldlM (fun run owner => (requirementsOf run.db owner).foldlM step run) run

-- Counted down from `maxDepth`, so the walk at depth 1 has all of it left and
-- the one at a depth past it has none. The walk writes no resource, so a named
-- target is read where it is used and not before the rows.
def walk (walker : Walker) : Nat → List (RequirementOwner × Nat) → Window → Run → Answer Run
  | 0,owners,_,run => walkRows (fun run row => miss walker run row tooDeep 1) owners run
  | levels+1,owners,window,run =>
    walkRows (requirementStep cal sha256 walker
      (fun run id widened => walk walker levels [(.resource,id)] widened run) window) owners run

def resolve (db : Database) (owners : List (RequirementOwner × Nat)) (window : Window) (used : List Nat)
    (parent : Option Reservation) (requesterId : Option String) (assignments : List (String × List Nat)) : Answer Run := do
  let walker : Walker := ⟨db.defaultRequirementEnforcement,parent,requesterId,assignments.flatMap Prod.snd⟩
  let run ← walk cal sha256 walker maxDepth owners window ⟨db,used,assignments,[],[],[]⟩
  let left := (run.assigned.flatMap Prod.snd).insertionSort (fun a b => a ≤ b)
  ensure (left = []) (refuse 422 s!"assignments name resources no requirement asks for: {left}" .invalidValue)
  .ok run

def checkAssignments (db : Database) (assignments : List (String × List Nat)) : Answer Unit :=
  assignments.forM (fun entry => entry.2.forM (fun id =>
    ensure (∃ resource ∈ db.resource? id, resource.resourceType = entry.1 ∧ resource.active = true)
      (refuse 422 s!"resource {id} is not an active {entry.1} resource of this organization" .invalidValue)))

def unmetOf (answer : Answer Run) : List UnmetRequirement :=
  match answer with
  | .ok run => run.unmet
  | .error _ => []

def unmetForWindow (db : Database) (activityId resourceId : Option Nat) (window : Window) : List UnmetRequirement :=
  let owners := activityId.toList.map (fun id => (RequirementOwner.activity,id)) ++
    resourceId.toList.map (fun id => (RequirementOwner.resource,id))
  if owners = [] then [] else unmetOf (resolve cal sha256 db owners window resourceId.toList none none [])

def nextRunLookaheadDays : Int := 366

def ownersWithRequirements (db : Database) : List (RequirementOwner × Nat) :=
  (db.requirements.map (fun row => (row.ownerKind,row.ownerId))).dedup

structure SlotGap where
  requirementId : Nat
  date : Int
  message : String
  deriving DecidableEq, Repr

instance ownerPairs : LawfulBEq (RequirementOwner × Nat) := inferInstance

def unmetForSlot (db : Database) (slot : StructuralMasterSlot) : List SlotGap :=
  let needing := ownersWithRequirements db
  if (RequirementOwner.activity,slot.activityId) ∉ needing ∧
      ∀ id ∈ slot.resourceId, (RequirementOwner.resource,id) ∉ needing then [] else
  match (db.activity? slot.activityId).bind (fun activity => db.cycle? activity.cycleId) with
  | none => []
  | some cycle =>
    let first := max db.orgToday cycle.dateBoundsStart
    let last := min cycle.dateBoundsEnd (first+nextRunLookaheadDays)
    match occurrences cal slot.rrule slot.dtstart first last with
    | [] => []
    | day :: _ => (unmetForWindow cal sha256 db (some slot.activityId) slot.resourceId
        ⟨day,slot.timeWindowStart,slot.timeWindowEnd⟩).map (fun found => ⟨found.requirementId,day,found.message⟩)

end ChronosLedger
