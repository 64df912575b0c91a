import Mathlib.Data.List.Basic
import Mathlib.Logic.Function.Basic
import ChronosLedger.Library.Runs

namespace ChronosLedger.Idempotency

-- The row under one caller and key. Its three response columns are null together.
structure Response where
  statusCode : Nat
  headers : List (String × String)
  body : String
  deriving DecidableEq, Repr

-- `claimedBy` is not a column: it names the request that put the row there.
structure IdempotencyRecord where
  id : Nat
  requestHash : String
  response : Option Response
  claimedBy : Nat
  deriving DecidableEq, Repr

-- What the middleware saw go out. A response cut short is not complete.
structure Sent where
  status : Option Nat
  headers : List (String × String)
  body : List String
  complete : Bool
  deriving DecidableEq, Repr

def unstoredClientErrors : List Nat := [401,403,429]
def keptHeaders : List String := ["content-type","location"]

def lowered (name : String) : String := String.ofList (name.toList.map Char.toLower)

def storable (statusCode : Nat) : Bool :=
  if 200 ≤ statusCode ∧ statusCode < 300 then true
  else 400 ≤ statusCode && statusCode < 500 && !unstoredClientErrors.contains statusCode

def storedResponse (sent : Sent) : Option Response :=
  match sent.status with
  | some status =>
    if sent.complete && storable status then
      some ⟨status,sent.headers.filter (fun header => keptHeaders.contains (lowered header.1)),String.join sent.body⟩
    else none
  | none => none

inductive Reply where
  | keyReused | inProgress | replay (response : Response)
  deriving DecidableEq, Repr

def answer (row : IdempotencyRecord) (requestHash : String) : Reply :=
  if row.requestHash ≠ requestHash then .keyReused
  else match row.response with
  | none => .inProgress
  | some response => .replay response

-- Where a request stands, statement by statement. The claim is inserted in the
-- handler's own transaction, so nobody else sees it before that commits, and
-- another insert of the key waits for it.
inductive Phase where
  | arriving
  | inserting
  | outrun
  | answered (reply : Reply)
  | running
  | ended (sent : Sent)
  | looked (sent : Sent) (row : Option IdempotencyRecord)
  | over
  deriving DecidableEq, Repr

-- One caller's one key. `row` is what is committed, `claimed` the request whose
-- transaction holds the key. The last three say what happened: the requests that
-- committed their effect, the 2xx responses such requests have stored, and those
-- there were when a request arrived.
structure KeyState where
  row : Option IdempotencyRecord
  claimed : Option Nat
  nextId : Nat
  phase : Nat → Phase
  effects : List Nat
  settled : List (Nat × Response)
  began : Nat → List (Nat × Response)

inductive Operation where
  | find (request : Nat)
  | insert (request : Nat)
  | findAgain (request : Nat)
  | commit (request : Nat) (sent : Sent)
  | rollback (request : Nat) (sent : Sent)
  | look (request : Nat)
  | write (request : Nat)
  deriving DecidableEq, Repr

def KeyState.at_ (s : KeyState) (request : Nat) (phase : Phase) : KeyState := {s with phase := Function.update s.phase request phase}

variable (hash : Nat → String)

-- claim: the row under the key, of a request within the retention window, where
-- no row has expired.
def find (s : KeyState) (request : Nat) : KeyState :=
  let s := {s with began := Function.update s.began request s.settled}
  match s.row with
  | some row => s.at_ request (.answered (answer row (hash request)))
  | none => s.at_ request .inserting

def insert (s : KeyState) (request : Nat) : Option KeyState :=
  match s.claimed,s.row with
  | some _,_ => none
  | none,some _ => some (s.at_ request .outrun)
  | none,none => some ({s with claimed := some request}.at_ request .running)

def findAgain (s : KeyState) (request : Nat) : KeyState :=
  match s.row with
  | some row => s.at_ request (.answered (answer row (hash request)))
  | none => s.at_ request (.answered .inProgress)

def commit (s : KeyState) (request : Nat) (sent : Sent) : KeyState :=
  {s with
    row := some ⟨s.nextId,hash request,none,request⟩
    claimed := none
    nextId := s.nextId+1
    effects := s.effects ++ [request]}.at_ request (.ended sent)

def rollback (s : KeyState) (request : Nat) (sent : Sent) : KeyState := {s with claimed := none}.at_ request (.ended sent)

def isSuccess (response : Response) : Bool := 200 ≤ response.statusCode && response.statusCode < 300

def noteSettled (s : KeyState) (request : Nat) (response : Response) : KeyState :=
  if request ∈ s.effects ∧ isSuccess response = true then {s with settled := s.settled ++ [(request,response)]} else s

-- The rest of _settle, after its read. A row is changed or deleted by its id; one
-- that is gone by then, or a key taken by then, is an error that is only logged.
def settle (s : KeyState) (request : Nat) (sent : Sent) (seen : Option IdempotencyRecord) : Option KeyState :=
  match seen with
  | some row =>
    if row.requestHash ≠ hash request then some s
    else match storedResponse sent with
    | some response =>
      if s.row.map IdempotencyRecord.id = some row.id then
        some (noteSettled {s with row := s.row.map (fun row => {row with response := some response})} request response)
      else some s
    | none =>
      if row.response = none ∧ s.row.map IdempotencyRecord.id = some row.id then some {s with row := none} else some s
  | none =>
    match storedResponse sent with
    | none => some s
    | some response =>
      if s.claimed.isSome then none
      else if s.row.isSome then some s
      else some (noteSettled {s with row := some ⟨s.nextId,hash request,some response,request⟩,nextId := s.nextId+1} request response)

def step (s : KeyState) : Operation → Option KeyState
  | .find request => if s.phase request = .arriving then some (find hash s request) else none
  | .insert request => if s.phase request = .inserting then insert s request else none
  | .findAgain request => if s.phase request = .outrun then some (findAgain hash s request) else none
  | .commit request sent => if s.phase request = .running then some (commit hash s request sent) else none
  | .rollback request sent => if s.phase request = .running then some (rollback s request sent) else none
  | .look request =>
    match s.phase request with
    | .ended sent => some (s.at_ request (.looked sent s.row))
    | _ => none
  | .write request =>
    match s.phase request with
    | .looked sent seen => (settle hash s request sent seen).map (fun s => s.at_ request .over)
    | _ => none

abbrev Steps : KeyState → Operation → KeyState → Prop := Runs.Acts (step hash)

def KeyState.empty : KeyState := ⟨none,none,1,fun _ => .arriving,[],[],fun _ => []⟩

-- The row the write of a settlement reaches, and the response it leaves there,
-- none when it deletes the row.
def reaches (s : KeyState) (request : Nat) : Option (IdempotencyRecord × Option Response) :=
  match s.phase request,s.row with
  | .looked sent (some seen),some row =>
    if seen.requestHash = hash request ∧ row.id = seen.id ∧ (storedResponse sent = none → seen.response = none) then
      some (row,storedResponse sent)
    else none
  | _,_ => none

-- No settlement deletes a claim.
def KeepsClaims (s : KeyState) : Operation → Prop
  | .write request => ∀ found ∈ reaches hash s request, found.2 ≠ none
  | _ => True

-- No settlement writes on the row of another request that committed its effect.
def KeepsOff (s : KeyState) : Operation → Prop
  | .write request => ∀ found ∈ reaches hash s request, found.1.claimedBy ∈ s.effects → found.1.claimedBy = request
  | _ => True

instance (s : KeyState) (op : Operation) : Decidable (KeepsClaims hash s op) := by
  cases op <;> unfold KeepsClaims <;> infer_instance

instance (s : KeyState) (op : Operation) : Decidable (KeepsOff hash s op) := by
  cases op <;> unfold KeepsOff <;> infer_instance

end ChronosLedger.Idempotency
