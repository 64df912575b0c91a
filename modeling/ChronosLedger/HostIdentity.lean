import Mathlib.Data.List.DropRight
import ChronosLedger.Library.Runs
import ChronosLedger.Tables

namespace ChronosLedger.HostIdentity

-- Headers are read as latin-1, so these are all the characters there are to strip
-- and to fold.
def whitespace (c : Char) : Bool := c.toNat ∈ [9,10,11,12,13,28,29,30,31,32,133,160]

def strip (text : String) : String := String.ofList ((text.toList.dropWhile whitespace).rdropWhile whitespace)

def lower (c : Char) : Char :=
  if 65 ≤ c.toNat ∧ c.toNat ≤ 90 ∨ 192 ≤ c.toNat ∧ c.toNat ≤ 222 ∧ c.toNat ≠ 215 then Char.ofNat (c.toNat+32) else c

def normalizeEmail (value : String) : String := String.ofList ((strip value).toList.map lower)

def systemActorId : String := "system"
def actorIdLimit : Nat := 50
def nameLimit : Nat := 120
def emailLimit : Nat := 120
def unitLimit : Nat := 50
def placeholderEmailDomain : String := "host.invalid"

def roleNames : List (String × InstitutionalRole) := [("ORG_ADMIN",.orgAdmin),("UNIT_ADMIN",.unitAdmin),("STAFF",.staff),("MEMBER",.member)]

-- The X-Chronos-Actor headers of a request.
structure Headers where
  actor : Option String
  role : Option String
  name : Option String
  email : Option String
  unit : Option String
  deriving DecidableEq, Repr

structure ChronosError where
  statusCode : Nat
  detail : String
  code : String
  deriving DecidableEq, Repr

-- What the host asserts. A unit that is absent leaves the account's as it is, and
-- an empty one clears it.
structure Assertion where
  actorId : String
  role : InstitutionalRole
  name : Option String
  email : Option String
  unit : Option String
  deriving DecidableEq, Repr

def actorRequired : ChronosError :=
  ⟨401,"X-Chronos-Actor is required, at most " ++ toString actorIdLimit ++ " characters","NOT_AUTHENTICATED"⟩
def roleInvalid : ChronosError :=
  ⟨400,"X-Chronos-Actor-Role must be one of " ++ String.intercalate ", " (roleNames.map Prod.fst),"INVALID_VALUE"⟩
def emailInvalid : ChronosError :=
  ⟨400,"X-Chronos-Actor-Email must be an address of at most " ++ toString emailLimit ++ " characters","INVALID_VALUE"⟩
def unitInvalid : ChronosError :=
  ⟨400,"X-Chronos-Actor-Unit must be a unit code of at most " ++ toString unitLimit ++ " characters","INVALID_VALUE"⟩
def emailTaken : ChronosError := ⟨409,"X-Chronos-Actor-Email already belongs to another account","EMAIL_TAKEN"⟩

def checkEmail : Option String → Except ChronosError (Option String)
  | none => .ok none
  | some email =>
    let email := normalizeEmail email
    if email = "" ∨ emailLimit < email.length then .error emailInvalid else .ok (some email)

def checkUnit : Option String → Except ChronosError (Option String)
  | none => .ok none
  | some unit => if unitLimit < (strip unit).length then .error unitInvalid else .ok (some (strip unit))

def checkName (name : Option String) : Option String :=
  let name := String.ofList ((strip (name.getD "")).toList.take nameLimit)
  if name = "" then none else some name

-- The host itself is an administrator, whatever role or unit it sends.
def asserted (headers : Headers) : Except ChronosError Assertion :=
  let actorId := strip (headers.actor.getD "")
  if actorId = "" ∨ actorIdLimit < actorId.length then .error actorRequired
  else
    let known := if actorId = systemActorId then some .orgAdmin else roleNames.lookup (strip (headers.role.getD ""))
    match known with
    | none => .error roleInvalid
    | some role => do
      let email ← checkEmail headers.email
      let unit ← checkUnit (if actorId = systemActorId then none else headers.unit)
      return ⟨actorId,role,checkName headers.name,email,unit⟩

structure User where
  id : String
  fullName : String
  emailAddress : String
  roleType : InstitutionalRole
  unitCode : Option String
  initialLoginState : Bool
  deriving DecidableEq, Repr

-- The columns an UPDATE sets.
structure Changes where
  role : Option InstitutionalRole
  fullName : Option String
  emailAddress : Option String
  unitCode : Option (Option String)
  initialLoginState : Option Bool
  deriving DecidableEq, Repr

def orNone (unit : String) : Option String := if unit = "" then none else some unit

def differing {α : Type} [DecidableEq α] (asked : Option α) (current : α) : Option α := asked.filter (fun new => new ≠ current)

-- What is assigned to the account, none of a column that is as asserted.
def bringUpToDate (user : User) (a : Assertion) : Changes where
  role := differing (some a.role) user.roleType
  fullName := differing a.name user.fullName
  emailAddress := (differing a.email user.emailAddress).map normalizeEmail
  unitCode := differing (a.unit.map orNone) user.unitCode
  initialLoginState := if user.initialLoginState then some false else none

def Changes.none_ : Changes := ⟨none,none,none,none,none⟩

def Changes.applied (changes : Changes) (user : User) : User where
  id := user.id
  fullName := changes.fullName.getD user.fullName
  emailAddress := changes.emailAddress.getD user.emailAddress
  roleType := changes.role.getD user.roleType
  unitCode := changes.unitCode.getD user.unitCode
  initialLoginState := changes.initialLoginState.getD user.initialLoginState

def Assertion.address (a : Assertion) : String := normalizeEmail (a.email.getD (a.actorId ++ "@" ++ placeholderEmailDomain))

def newUser (a : Assertion) : User := ⟨a.actorId,a.name.getD a.actorId,a.address,a.role,orNone (a.unit.getD ""),false⟩

def get (accounts : List User) (id : String) : Option User := accounts.find? (fun user => user.id = id)

-- Whoever else has an address. Addresses are kept folded, so the column's index and
-- the one on lower(email_address) compare the same.
def holder (accounts : List User) (id email : String) : Option User :=
  accounts.find? (fun user => user.id ≠ id && user.emailAddress = email)

inductive Answer where
  | accepted (id : String)
  | refused (error : ChronosError)
  | taken (a : Assertion) (error : ChronosError) (held : Option (String × String))
  deriving DecidableEq, Repr

-- Where a request stands, statement by statement. `held` is no part of the answer:
-- the address that a refused write asked for, and whose it was.
inductive Phase where
  | reading (a : Assertion)
  | inserting (a : Assertion)
  | rereading (a : Assertion) (held : Option (String × String))
  | updating (a : Assertion) (changes : Changes)
  | finished (answer : Answer)
  deriving DecidableEq, Repr

structure Host where
  accounts : List User
  requests : List Phase
  deriving DecidableEq, Repr

inductive Operation where
  | arrive (headers : Headers)
  | read (request : Nat)
  | insert (request : Nat)
  | reread (request : Nat)
  | update (request : Nat)
  | edit (id : String) (changes : Changes)
  | create (user : User)
  deriving DecidableEq, Repr

def known (user : User) (a : Assertion) : Phase :=
  let changes := bringUpToDate user a
  if changes = .none_ then .finished (.accepted a.actorId) else .updating a changes

def write (accounts : List User) (id : String) (changes : Changes) : List User :=
  accounts.map (fun user => if user.id = id then changes.applied user else user)

def Host.goes (s : Host) (k : Nat) (phase : Phase) : Host := {s with requests := s.requests.set k phase}

-- Whose address an UPDATE would take.
def inTheWay (accounts : List User) (id : String) (changes : Changes) : Option User := changes.emailAddress.bind (holder accounts id)

def step (s : Host) : Operation → Option Host
  | .arrive headers =>
    some {s with requests := s.requests ++ [match asserted headers with
      | .error error => .finished (.refused error)
      | .ok a => .reading a]}
  | .read k =>
    match s.requests[k]? with
    | some (.reading a) => some (s.goes k (match get s.accounts a.actorId with
        | none => .inserting a
        | some user => known user a))
    | _ => none
  | .insert k =>
    match s.requests[k]? with
    | some (.inserting a) =>
      match get s.accounts a.actorId,holder s.accounts a.actorId (newUser a).emailAddress with
      | none,none => some {s.goes k (.finished (.accepted a.actorId)) with accounts := s.accounts ++ [newUser a]}
      | _,held => some (s.goes k (.rereading a (held.map (fun other => ((newUser a).emailAddress,other.id)))))
    | _ => none
  | .reread k =>
    match s.requests[k]? with
    | some (.rereading a held) => some (s.goes k (match get s.accounts a.actorId with
        | none => .finished (.taken a emailTaken held)
        | some user => known user a))
    | _ => none
  | .update k =>
    match s.requests[k]? with
    | some (.updating a changes) =>
      match inTheWay s.accounts a.actorId changes with
      | some other => some (s.goes k (.finished (.taken a emailTaken (changes.emailAddress.map (fun email => (email,other.id))))))
      | none => some {s.goes k (.finished (.accepted a.actorId)) with accounts := write s.accounts a.actorId changes}
    | _ => none
  -- Whatever else changes accounts or makes them, held to the same indexes.
  | .edit id changes =>
    match inTheWay s.accounts id changes with
    | some _ => none
    | none => some {s with accounts := write s.accounts id changes}
  | .create user =>
    match get s.accounts user.id,holder s.accounts user.id user.emailAddress with
    | none,none => some {s with accounts := s.accounts ++ [user]}
    | _,_ => none

abbrev Steps : Host → Operation → Host → Prop := Runs.Acts step

def systemAccount : User := ⟨systemActorId,"Host system",systemActorId ++ "@" ++ placeholderEmailDomain,.orgAdmin,none,false⟩

def seedSystemAccount (accounts : List User) : List User :=
  match get accounts systemActorId with
  | some _ => accounts
  | none => accounts ++ [systemAccount]

def Host.start : Host := ⟨seedSystemAccount [],[]⟩

-- The same answered in one go, with nobody else at work.
def save (accounts : List User) (a : Assertion) (changes : Changes) : List User × Answer :=
  match inTheWay accounts a.actorId changes with
  | some other => (accounts,.taken a emailTaken (changes.emailAddress.map (fun email => (email,other.id))))
  | none => (write accounts a.actorId changes,.accepted a.actorId)

def provision (accounts : List User) (a : Assertion) : List User × Answer :=
  match holder accounts a.actorId (newUser a).emailAddress with
  | some other => (accounts,.taken a emailTaken (some ((newUser a).emailAddress,other.id)))
  | none => (accounts ++ [newUser a],.accepted a.actorId)

def hostActor (accounts : List User) (headers : Headers) : List User × Answer :=
  match asserted headers with
  | .error error => (accounts,.refused error)
  | .ok a =>
    match get accounts a.actorId with
    | none => provision accounts a
    | some user => if bringUpToDate user a = .none_ then (accounts,.accepted a.actorId) else save accounts a (bringUpToDate user a)

variable {accounts : List User} {a : Assertion} {changes : Changes} {user other : User} {headers : Headers} {id email : String}

theorem lower_toNat (c : Char) : (lower c).toNat =
    if 65 ≤ c.toNat ∧ c.toNat ≤ 90 ∨ 192 ≤ c.toNat ∧ c.toNat ≤ 222 ∧ c.toNat ≠ 215 then c.toNat+32 else c.toNat := by
  unfold lower
  split
  · rename_i capital
    have valid : (c.toNat+32).isValidChar := by
      unfold Nat.isValidChar
      omega
    unfold Char.ofNat
    rw [dif_pos valid]
    rfl
  · rfl

theorem lower_lower (c : Char) : lower (lower c) = lower c := by
  apply Char.toNat_inj.mp
  rw [lower_toNat,if_neg]
  rw [lower_toNat]
  split <;> omega

theorem whitespace_lower (c : Char) : whitespace (lower c) = whitespace c := by
  unfold whitespace
  rw [lower_toNat]
  split
  · rename_i capital
    simp only [List.mem_cons,List.not_mem_nil,or_false,decide_eq_decide]
    omega
  · rfl

def stripped (text : List Char) : List Char := (text.dropWhile whitespace).rdropWhile whitespace

theorem stripped_stripped (text : List Char) : stripped (stripped text) = stripped text := by
  have front : (stripped text).dropWhile whitespace = stripped text := by
    rw [List.dropWhile_eq_self_iff]
    intro some_
    have kept : stripped text <+: text.dropWhile whitespace := List.rdropWhile_prefix whitespace _
    rw [kept.getElem some_]
    exact List.dropWhile_get_zero_not whitespace text _
  show ((stripped text).dropWhile whitespace).rdropWhile whitespace = stripped text
  rw [front]
  exact List.rdropWhile_idempotent whitespace _

theorem stripped_lower (text : List Char) : stripped (text.map lower) = (stripped text).map lower := by
  have same : whitespace ∘ lower = whitespace := funext whitespace_lower
  simp only [stripped,List.rdropWhile,List.dropWhile_map,same,← List.map_reverse]

theorem normalizeEmail_again (value : String) : normalizeEmail (normalizeEmail value) = normalizeEmail value := by
  have once : normalizeEmail value = String.ofList ((stripped value.toList).map lower) := by simp [normalizeEmail,strip,stripped]
  have twice : normalizeEmail (String.ofList ((stripped value.toList).map lower)) =
      String.ofList ((stripped ((stripped value.toList).map lower)).map lower) := by simp [normalizeEmail,strip,stripped]
  rw [once,twice,stripped_lower,stripped_stripped,List.map_map]
  congr 2
  exact funext lower_lower

theorem bind_parts {ε α β : Type} {x : Except ε α} {f : α → Except ε β} {b : β} (ok : x >>= f = .ok b) : ∃ a, x = .ok a ∧ f a = .ok b := by
  cases x with
  | error error => cases ok
  | ok a => exact ⟨a,rfl,ok⟩

theorem checkEmail_normal {asked : Option String} {given : Option String} (ok : checkEmail asked = .ok given) :
    ∀ email ∈ given, normalizeEmail email = email := by
  intro email is
  cases is
  cases asked with
  | none => cases ok
  | some asked =>
    simp only [checkEmail] at ok
    split at ok
    · cases ok
    · have folded := Option.some.inj (Except.ok.inj ok)
      rw [← folded]
      exact normalizeEmail_again asked

theorem asserted_normal (ok : asserted headers = .ok a) : ∀ email ∈ a.email, normalizeEmail email = email := by
  unfold asserted at ok
  dsimp only at ok
  split at ok
  · cases ok
  split at ok
  · cases ok
  obtain ⟨email,checked,ok⟩ := bind_parts ok
  obtain ⟨unit,_,ok⟩ := bind_parts ok
  cases ok
  exact checkEmail_normal checked

-- The account as the host has it, what it left unsaid as it was.
def brought (user : User) (a : Assertion) : User where
  id := user.id
  fullName := a.name.getD user.fullName
  emailAddress := a.email.getD user.emailAddress
  roleType := a.role
  unitCode := (a.unit.map orNone).getD user.unitCode
  initialLoginState := false

theorem differing_getD {α : Type} [DecidableEq α] (asked : Option α) (current : α) : (differing asked current).getD current = asked.getD current := by
  cases asked with
  | none => rfl
  | some new => by_cases same : new = current <;> simp [differing,Option.filter,same]

theorem differing_none {α : Type} [DecidableEq α] {asked : Option α} {current : α} (same : ∀ new ∈ asked, new = current) :
    differing asked current = none := by
  rw [differing,Option.filter_eq_none_iff]
  intro new is
  simp [same new is]

theorem differing_normal (normal : ∀ email ∈ a.email, normalizeEmail email = email) (current : String) :
    (differing a.email current).map normalizeEmail = differing a.email current := by
  cases assigned : differing a.email current with
  | none => rfl
  | some email =>
    have asked := (Option.filter_eq_some_iff.mp assigned).1
    simp [normal email asked]

theorem bringUpToDate_brought (normal : ∀ email ∈ a.email, normalizeEmail email = email) : (bringUpToDate user a).applied user = brought user a := by
  have seen : (if user.initialLoginState then some false else none).getD user.initialLoginState = false := by
    cases unset : user.initialLoginState <;> rfl
  simp only [bringUpToDate,Changes.applied,brought,differing_normal normal,differing_getD,Option.getD_some,seen]

theorem brought_settled (user : User) (a : Assertion) : bringUpToDate (brought user a) a = .none_ := by
  have name : differing a.name (a.name.getD user.fullName) = none := differing_none (fun name is => by simp [Option.mem_def.mp is])
  have email : differing a.email (a.email.getD user.emailAddress) = none := differing_none (fun email is => by simp [Option.mem_def.mp is])
  have unit : differing (a.unit.map orNone) ((a.unit.map orNone).getD user.unitCode) = none :=
    differing_none (fun unit is => by simp [Option.mem_def.mp is])
  have role : differing (some a.role) a.role = none := differing_none (fun role is => (Option.some.inj is).symm)
  simp [bringUpToDate,brought,Changes.none_,name,email,unit,role]

theorem newUser_settled (normal : ∀ email ∈ a.email, normalizeEmail email = email) : bringUpToDate (newUser a) a = .none_ := by
  have name : differing a.name (a.name.getD a.actorId) = none := differing_none (fun name is => by simp [Option.mem_def.mp is])
  have email : differing a.email a.address = none :=
    differing_none (fun email is => by simp [Assertion.address,Option.mem_def.mp is,normal email is])
  have unit : differing (a.unit.map orNone) (orNone (a.unit.getD "")) = none := by
    apply differing_none
    intro unit is
    obtain ⟨code,coded,rfl⟩ := Option.map_eq_some_iff.mp is
    simp [coded]
  have role : differing (some a.role) a.role = none := differing_none (fun role is => (Option.some.inj is).symm)
  simp [bringUpToDate,newUser,Changes.none_,name,email,unit,role]

theorem get_parts (found : get accounts id = some user) : user ∈ accounts ∧ user.id = id :=
  ⟨List.mem_of_find?_eq_some found,by simpa using List.find?_some found⟩

theorem get_none : get accounts id = none ↔ ∀ user ∈ accounts, user.id ≠ id := by simp [get]

theorem holder_parts (found : holder accounts id email = some other) : other ∈ accounts ∧ other.id ≠ id ∧ other.emailAddress = email := by
  have matched := List.find?_some found
  simp only [ne_eq,Bool.and_eq_true,decide_eq_true_eq] at matched
  exact ⟨List.mem_of_find?_eq_some found,matched⟩

theorem holder_none : holder accounts id email = none ↔ ∀ user ∈ accounts, user.id ≠ id → user.emailAddress ≠ email := by simp [holder]

theorem inTheWay_parts (found : inTheWay accounts id changes = some other) :
    ∃ email, changes.emailAddress = some email ∧ other ∈ accounts ∧ other.id ≠ id ∧ other.emailAddress = email := by
  obtain ⟨email,sets,held⟩ := Option.bind_eq_some_iff.mp found
  exact ⟨email,sets,holder_parts held⟩

theorem get_write (accounts : List User) (id : String) (changes : Changes) (asked : String) :
    get (write accounts id changes) asked = if asked = id then (get accounts id).map changes.applied else get accounts asked := by
  have same : ((fun user : User => decide (user.id = asked)) ∘ fun user => if user.id = id then changes.applied user else user) =
      fun user => decide (user.id = asked) := by
    funext user
    by_cases mine : user.id = id <;> simp [mine,Changes.applied]
  unfold write get
  rw [List.find?_map,same]
  by_cases mine : asked = id
  · subst mine
    cases found : accounts.find? (fun user => user.id = asked) with
    | none => simp
    | some user => simp [(get_parts found).2]
  · cases found : accounts.find? (fun user => user.id = asked) with
    | none => simp [mine]
    | some user => simp [(get_parts found).2,mine]

theorem get_add (accounts : List User) (user : User) (asked : String) :
    get (accounts ++ [user]) asked = (get accounts asked).or (if user.id = asked then some user else none) := by
  by_cases mine : user.id = asked <;> simp [get,List.find?_append,mine]

-- What a request that was let in leaves behind.
structure Settled (accounts : List User) (a : Assertion) (after : List User) : Prop where
  actor : get after a.actorId = some (((get accounts a.actorId).map (fun user => brought user a)).getD (newUser a))
  others : ∀ id, id ≠ a.actorId → get after id = get accounts id

-- Somebody else has the address the request needs for its account.
structure Held (accounts : List User) (a : Assertion) (other : User) : Prop where
  there : other ∈ accounts
  another : other.id ≠ a.actorId
  address : other.emailAddress = a.address
  needed : get accounts a.actorId = none ∨ a.email ≠ none

theorem assigned_address (assigned : (bringUpToDate user a).emailAddress = some email) : email = a.address ∧ a.email ≠ none := by
  obtain ⟨asked,differs,rfl⟩ := Option.map_eq_some_iff.mp assigned
  have asks := (Option.filter_eq_some_iff.mp differs).1
  exact ⟨by simp [Assertion.address,asks],by simp [asks]⟩

theorem provision_answers (absent : get accounts a.actorId = none) :
    (∃ other, Held accounts a other ∧ provision accounts a = (accounts,.taken a emailTaken (some (a.address,other.id)))) ∨
    provision accounts a = (accounts ++ [newUser a],.accepted a.actorId) ∧ Settled accounts a (accounts ++ [newUser a]) := by
  cases held : holder accounts a.actorId (newUser a).emailAddress with
  | some other =>
    obtain ⟨there,another,address⟩ := holder_parts held
    exact .inl ⟨other,⟨there,another,address,.inl absent⟩,by simp only [provision,held]; rfl⟩
  | none =>
    refine .inr ⟨by simp only [provision,held],?_,?_⟩
    · simp [get_add,absent,newUser]
    · intro id other
      simp [get_add,newUser,Ne.symm other]

theorem save_answers (normal : ∀ email ∈ a.email, normalizeEmail email = email) (known : get accounts a.actorId = some user) :
    (∃ other, Held accounts a other ∧ save accounts a (bringUpToDate user a) = (accounts,.taken a emailTaken (some (a.address,other.id)))) ∨
    save accounts a (bringUpToDate user a) = (write accounts a.actorId (bringUpToDate user a),.accepted a.actorId) ∧
      Settled accounts a (write accounts a.actorId (bringUpToDate user a)) := by
  cases held : inTheWay accounts a.actorId (bringUpToDate user a) with
  | some other =>
    obtain ⟨email,assigned,there,another,address⟩ := inTheWay_parts held
    obtain ⟨rfl,asks⟩ := assigned_address assigned
    exact .inl ⟨other,⟨there,another,address,.inr asks⟩,by simp only [save,held,assigned,Option.map_some]⟩
  | none =>
    refine .inr ⟨by simp only [save,held],?_,?_⟩
    · simp [get_write,known,bringUpToDate_brought normal]
    · intro id other
      simp [get_write,other]

theorem unchanged_brought (normal : ∀ email ∈ a.email, normalizeEmail email = email) (same : bringUpToDate user a = .none_) : brought user a = user := by
  rw [← bringUpToDate_brought normal,same]
  rfl

theorem hostActor_answers (ok : asserted headers = .ok a) :
    (∃ other, Held accounts a other ∧ hostActor accounts headers = (accounts,.taken a emailTaken (some (a.address,other.id)))) ∨
    ∃ after, hostActor accounts headers = (after,.accepted a.actorId) ∧ Settled accounts a after := by
  have normal := asserted_normal ok
  cases found : get accounts a.actorId with
  | none =>
    have answers : hostActor accounts headers = provision accounts a := by simp only [hostActor,ok,found]
    rw [answers]
    exact (provision_answers found).imp_right (fun made => ⟨_,made⟩)
  | some user =>
    by_cases same : bringUpToDate user a = .none_
    · refine .inr ⟨accounts,by simp only [hostActor,ok,found,same,if_true],?_,fun _ _ => rfl⟩
      simp [found,unchanged_brought normal same]
    · have answers : hostActor accounts headers = save accounts a (bringUpToDate user a) := by simp only [hostActor,ok,found,same,if_false]
      rw [answers]
      exact (save_answers normal found).imp_right (fun saved => ⟨_,saved⟩)

theorem Settled.again {after : List User} (settled : Settled accounts a after) (ok : asserted headers = .ok a) :
    hostActor after headers = (after,.accepted a.actorId) := by
  have actor := settled.actor
  cases found : get accounts a.actorId with
  | none =>
    simp only [found,Option.map_none,Option.getD_none] at actor
    simp only [hostActor,ok,actor,newUser_settled (asserted_normal ok),if_true]
  | some user =>
    simp only [found,Option.map_some,Option.getD_some] at actor
    simp only [hostActor,ok,actor,brought_settled,if_true]

end ChronosLedger.HostIdentity
