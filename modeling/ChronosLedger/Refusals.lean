import ChronosLedger.Availability

namespace ChronosLedger

inductive ErrorCode where
  | forbidden | notFound | stateConflict | invalidValue | insufficientRole | outsideUnit | resourceConflict
  | alreadyExists | userDeactivated | idempotencyKeyReused | reservationExternalRefTaken
  | resourceCapacityExceeded | resourceBookingsWouldNotFit | requirementUnsatisfied | managerNotSet
  | locationRequired | locationTooCoarse | outsideGeofence | importRejected | internalError
  deriving DecidableEq, Repr

-- The body of an error: a sentence, or a sentence and the rows it is about.
inductive Detail where
  | text (message : String)
  | conflicts (message : String) (conflicts : List BusyInterval)
  | blocked (message : String) (conflicts : List (BusyInterval × Nat))
  | capacity (message : String) (conflicts : List BusyInterval) (capacity : Nat) (taken : Int) (requested : Nat)
  | reservation (message : String) (reservationId : Nat)
  | reservations (message : String) (reservations : List Reservation)
  deriving DecidableEq, Repr

structure Refusal where
  statusCode : Nat
  detail : Detail
  code : ErrorCode
  deriving DecidableEq, Repr

-- What a request comes to. A refusal carries no database: the transaction is
-- rolled back, and what was committed before it is the state it began from.
abbrev Answer (α : Type) := Except Refusal α

instance decideAnswers {ε α : Type} [DecidableEq ε] [DecidableEq α] : DecidableEq (Except ε α)
  | .error one,.error two => decidable_of_iff (one = two) ⟨congrArg _,Except.error.inj⟩
  | .ok one,.ok two => decidable_of_iff (one = two) ⟨congrArg _,Except.ok.inj⟩
  | .error _,.ok _ => .isFalse nofun
  | .ok _,.error _ => .isFalse nofun

def refuse (statusCode : Nat) (message : String) (code : ErrorCode) : Refusal := ⟨statusCode,.text message,code⟩

def notFound (message : String) : Refusal := refuse 404 message .notFound

-- An exception no route expects: rolled back and answered with a 500.
def internalError : Refusal := refuse 500 "Internal server error" .internalError

def ensure (condition : Prop) [Decidable condition] (refusal : Refusal) : Answer Unit :=
  if condition then .ok () else .error refusal

def found {α : Type} (row : Option α) (refusal : Refusal) : Answer α :=
  match row with
  | some row => .ok row
  | none => .error refusal

@[simp] theorem ensure_parts {condition : Prop} [Decidable condition] {refusal : Refusal} {done : Unit} :
    ensure condition refusal = .ok done ↔ condition := by
  unfold ensure
  split <;> simp_all

@[simp] theorem found_parts {α : Type} {row : Option α} {refusal : Refusal} {value : α} :
    found row refusal = .ok value ↔ row = some value := by
  cases row <;> simp [found]

-- A sequence succeeds when its first step does and the rest does from there.
theorem bind_parts {ε α β : Type} {one : Except ε α} {rest : α → Except ε β} {value : β} :
    (one >>= rest) = .ok value ↔ ∃ first, one = .ok first ∧ rest first = .ok value := by
  cases one <;> simp [bind,Except.bind]

def requireRoles (roles : List InstitutionalRole) (currentUser : User) : Answer Unit :=
  ensure (currentUser.roleType ∈ roles) (refuse 403 "Insufficient permissions" .insufficientRole)

-- A unit admin with no unit of their own has no unit to act in.
def inUnitScope (currentUser : User) (unitCode : Option String) : Bool :=
  currentUser.roleType ≠ .unitAdmin || (currentUser.unitCode.isSome && unitCode = currentUser.unitCode)

def ensureUnitScope (currentUser : User) (unitCode : Option String) : Answer Unit :=
  ensure (inUnitScope currentUser unitCode = true) (refuse 403 "Outside your unit" .outsideUnit)

def ensureResourceScope (currentUser : User) (resource : Resource) : Answer Unit :=
  if resource.unitCode.isSome then ensureUnitScope currentUser resource.unitCode else .ok ()

def roomClass : String := "ROOM"

-- A room nobody has seen before is created on the spot, with the column
-- defaults for everything its name does not say.
def getOrCreateRoom (strip : String → String) (code : String) (db : Database) : Resource × Database :=
  match db.resources.find? (fun r => r.code = strip code) with
  | some existing => (existing,db)
  | none =>
    let room : Resource :=
      { id := nextId (db.resources.map Resource.id),code := strip code,resourceType := roomClass,unitCode := none
        capacity := none,mode := .exclusive,active := true,poolCapacity := exclusive_bare }
    (room,{db with resources := db.resources ++ [room]})

end ChronosLedger
