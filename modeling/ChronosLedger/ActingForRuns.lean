import ChronosLedger.ActingForRoutes
import Mathlib.Data.List.Basic

namespace ChronosLedger.ActingFor

variable {s next : Directory} {caller : Account} {request : Request} {key : String} {now : Int} {drawn : String}

theorem trimEnd_cons {part : String} (full : part ≠ "") (rest : Path) : trimEnd (part :: rest) = part :: trimEnd rest := by
  rw [trimEnd]
  cases trimEnd rest with
  | nil => exact if_neg full
  | cons => rfl

-- Every route's scope is that of its area, whatever comes after the area.
theorem requiredScope_under (method : Method) {area : String} (full : area ≠ "") (rest : Path) :
    requiredScope method (under area rest) = some (area ++ if method.reads then ":read" else ":write") := by
  have trimmed : trim (under area rest) = "api" :: "v1" :: area :: trimEnd rest := by
    unfold trim under
    rw [List.dropWhile_cons_of_pos (by decide),List.dropWhile_cons_of_neg (by decide),trimEnd_cons (by decide),trimEnd_cons (by decide),
      trimEnd_cons full]
  unfold requiredScope
  rw [trimmed]
  rfl

theorem area_refused {method : Method} {area : String} (full : area ≠ "") (writes : method.reads = false)
    (listed : area ++ ":write" ∈ actingForRefusedScopes) (rest : Path) : actingForRefused method (under area rest) = true := by
  unfold actingForRefused
  rw [requiredScope_under method full rest,writes,Option.any_some]
  have held : actingForRefusedScopes.contains (area ++ ":write") = true := List.contains_iff_mem.mpr listed
  exact Bool.or_eq_true_iff.mpr (.inl held)

theorem reset_refused (userId : String) : actingForRefused .post (under "users" [userId,"reset-password"]) = true := by
  have whole : trimEnd (under "users" [userId,"reset-password"]) = under "users" [userId,"reset-password"] := by
    simp [under,trimEnd]
  unfold actingForRefused
  rw [whole]
  exact Bool.or_eq_true_iff.mpr (.inr rfl)

def Route.issues : Route → Bool
  | .changePassword _ _ => true
  | .createApiKey _ => true
  | .resetUserPassword _ => true
  | .addKey _ _ => true
  | _ => false

-- What a request for one of these would leave or hand out, no key acting for
-- someone gets to.
theorem issues_refused {route : Route} (issues : route.issues = true) : actingForRefused route.method route.path = true := by
  cases route with
  | changePassword => exact area_refused (by decide) rfl (by decide) _
  | createApiKey => exact area_refused (by decide) rfl (by decide) _
  | resetUserPassword userId => exact reset_refused userId
  | addKey => exact area_refused (by decide) rfl (by decide) _
  | _ => cases issues

theorem apiKeyAt_parts {row : ApiKey} (found : apiKeyAt s key = some row) : row ∈ s.apiKeys ∧ row.raw = key :=
  ⟨List.mem_of_find?_eq_some found,by simpa using List.find?_some found⟩

theorem accountAt_parts {id : String} {user : Account} (found : accountAt s id = some user) : user ∈ s.accounts ∧ user.id = id :=
  ⟨List.mem_of_find?_eq_some found,by simpa using List.find?_some found⟩

-- A key that was let through for someone.
structure Allowed (s : Directory) (key : String) (request : Request) (row : ApiKey) (person : Account) : Prop where
  key_ : row ∈ s.apiKeys ∧ row.raw = key
  unexpired : ∀ expires ∈ row.expiresAt, request.now < expires
  area : keyAllows row.scopes (requiredScope request.route.method request.route.path) = true
  impersonates : impersonateScope ∈ row.scopes
  spared : actingForRefused request.route.method request.route.path = false
  person_ : person ∈ s.accounts ∧ person.id = request.actingFor
  organization : person.organizationId = row.organizationId
  active : person.deactivatedAt = none

theorem admitted_parts (admitted_ : admitted s key request = .ok caller) : ∃ row, Allowed s key request row caller := by
  unfold admitted at admitted_
  split at admitted_
  · cases admitted_
  · rename_i userId gate
    unfold getCurrentUserId at gate
    split at gate
    · cases gate
    · rename_i row found
      split at gate
      · cases gate
      · rename_i unexpired
        split at gate
        · rename_i area
          dsimp only at gate
          split at gate
          · rename_i impersonates
            split at gate
            · cases gate
            · rename_i spared
              split at gate
              · rename_i person there
                split at gate
                · rename_i both
                  cases gate
                  split at there
                  · cases there
                  · obtain ⟨known,same⟩ := accountAt_parts there
                    unfold getCurrentUser at admitted_
                    rw [same,there] at admitted_
                    dsimp only at admitted_
                    rw [if_pos both.2] at admitted_
                    cases admitted_
                    refine ⟨row,apiKeyAt_parts found,?_,area,List.contains_iff_mem.mp impersonates,by simpa using spared,⟨known,same⟩,both.1,both.2⟩
                    intro expires expiry
                    cases expiry_ : row.expiresAt with
                    | none =>
                      rw [expiry_] at expiry
                      cases expiry
                    | some instant =>
                      rw [expiry_] at expiry unexpired
                      cases expiry
                      simpa using unexpired
                · cases gate
              · cases gate
          · cases gate
        · cases gate

-- An outcome that hands nothing out, takes nothing chosen and adds no key.
def Quiet (s : Directory) (outcome : Outcome) : Prop := ∀ next credentials, outcome = .ok (next,credentials) →
  credentials = [] ∧ ∀ row ∈ next.apiKeys, row ∈ s.apiKeys

theorem Quiet.refused (s : Directory) (refusal : Refusal) : Quiet s (.error refusal) := fun _ _ same => by cases same

theorem Quiet.kept (s : Directory) {next : Directory} (keys : ∀ row ∈ next.apiKeys, row ∈ s.apiKeys) : Quiet s (.ok (next,[])) := by
  intro _ _ same
  cases same
  exact ⟨rfl,keys⟩

theorem Quiet.same (s : Directory) : Quiet s (unchanged s) := .kept s (fun _ member => member)

theorem Quiet.branch {p : Prop} [Decidable p] {one two : Outcome} (first : Quiet s one) (second : Quiet s two) : Quiet s (if p then one else two) := by
  split
  · exact first
  · exact second

theorem Quiet.issuer {issuerId : Nat} {f : Issuer → Outcome} (each : ∀ row, Quiet s (f row)) : Quiet s (withIssuer s caller issuerId f) := by
  unfold withIssuer asOrgAdmin
  apply Quiet.branch (.refused s _)
  split
  · exact .refused s _
  · exact each _

theorem Quiet.managed {userId : String} {f : Account → Outcome} (each : ∀ user, Quiet s (f user)) :
    Quiet s (match managedAccount s caller userId with
      | .error refusal => .error refusal
      | .ok user => f user) := by
  cases managedAccount s caller userId with
  | error refusal => exact .refused s refusal
  | ok user => exact each user

theorem updateUser_quiet (userId : String) (payload : UserUpdate) : Quiet s (updateUser s caller userId payload) := by
  apply Quiet.managed
  intro user
  apply Quiet.branch (.refused s _)
  apply Quiet.branch (.refused s _)
  split
  · exact .refused s _
  · exact .kept s (fun _ member => member)

theorem deactivateUser_quiet (userId : String) (now : Int) : Quiet s (deactivateUser s caller userId now) := by
  apply Quiet.managed
  intro user
  apply Quiet.branch (.refused s _)
  apply Quiet.branch (.same s)
  exact .kept s (fun _ member => (List.mem_filter.mp member).1)

theorem reactivateUser_quiet (userId : String) : Quiet s (reactivateUser s caller userId) := by
  apply Quiet.managed
  intro user
  exact .kept s (fun _ member => member)

theorem updateUserStatus_quiet (userId : String) (status : AccessReadiness) : Quiet s (updateUserStatus s caller userId status) := by
  unfold updateUserStatus
  apply Quiet.branch (.refused s _)
  split
  · exact .refused s _
  · exact .kept s (fun _ member => member)

theorem getUser_quiet (userId : String) : Quiet s (getUser s caller userId) := by
  unfold getUser
  apply Quiet.branch (.refused s _)
  split
  · exact .refused s _
  · exact Quiet.branch (.refused s _) (.same s)

theorem createUser_keys {payload : UserCreate} {credentials : List Credential} (made : createUser s caller payload = .ok (next,credentials)) :
    createUserRefusal s caller payload = none ∧ next = {s with accounts := s.accounts ++ [newAccount caller payload]} ∧
      credentials = [.password payload.password] := by
  unfold createUser at made
  split at made
  · cases made
  · rename_i free
    cases made
    exact ⟨free,rfl,rfl⟩

-- Past the gate, only making an account hands out or takes a credential.
theorem handle_quiet {route : Route} (spared : actingForRefused route.method route.path = false) (other : ∀ payload, route ≠ .createUser payload) :
    Quiet s (handle s caller now drawn route) := by
  have open_ := Bool.eq_false_iff.mp spared
  cases route with
  | changePassword => exact absurd (issues_refused rfl) open_
  | createApiKey => exact absurd (issues_refused rfl) open_
  | resetUserPassword => exact absurd (issues_refused rfl) open_
  | addKey => exact absurd (issues_refused rfl) open_
  | createUser payload => exact absurd rfl (other payload)
  | revokeApiKey => exact (open_ (area_refused (by decide) rfl (by decide) _)).elim
  | createIssuer => exact (open_ (area_refused (by decide) rfl (by decide) _)).elim
  | updateIssuer => exact (open_ (area_refused (by decide) rfl (by decide) _)).elim
  | deleteIssuer => exact (open_ (area_refused (by decide) rfl (by decide) _)).elim
  | retireKey => exact (open_ (area_refused (by decide) rfl (by decide) _)).elim
  | deleteKey => exact (open_ (area_refused (by decide) rfl (by decide) _)).elim
  | addRoleMapEntry => exact (open_ (area_refused (by decide) rfl (by decide) _)).elim
  | deleteRoleMapEntry => exact (open_ (area_refused (by decide) rfl (by decide) _)).elim
  | createLink => exact (open_ (area_refused (by decide) rfl (by decide) _)).elim
  | deleteLink => exact (open_ (area_refused (by decide) rfl (by decide) _)).elim
  | getMe => exact .same s
  | listApiKeys => exact Quiet.branch (.refused s _) (.same s)
  | listUsers => exact Quiet.branch (.same s) (.refused s _)
  | listAvailableStaff => exact .same s
  | getUser userId => exact getUser_quiet userId
  | updateUser userId payload => exact updateUser_quiet userId payload
  | deactivateUser userId => exact deactivateUser_quiet userId now
  | reactivateUser userId => exact reactivateUser_quiet userId
  | updateUserStatus userId status => exact updateUserStatus_quiet userId status
  | listIssuers => exact Quiet.branch (.refused s _) (.same s)
  | listKeys issuerId => exact Quiet.issuer (fun _ => .same s)
  | listRoleMap issuerId => exact Quiet.issuer (fun _ => .same s)
  | listLinks => exact Quiet.branch (.refused s _) (.same s)

-- Whether a request makes an account: it passes the gate and create_user's checks.
def makesAccount (s : Directory) (key : String) (request : Request) : Bool :=
  match request.route,admitted s key request with
  | .createUser payload,.ok caller => (createUserRefusal s caller payload).isNone
  | _,_ => false

theorem makesAccount_iff : makesAccount s key request = true ↔
    ∃ payload caller, request.route = .createUser payload ∧ admitted s key request = .ok caller ∧ createUserRefusal s caller payload = none := by
  unfold makesAccount
  constructor
  · intro makes
    split at makes
    · rename_i payload caller route admitted_
      exact ⟨payload,caller,route,admitted_,Option.isNone_iff_eq_none.mp makes⟩
    · cases makes
  · intro ⟨payload,caller,route,admitted_,free⟩
    rw [route,admitted_]
    exact Option.isNone_iff_eq_none.mpr free

theorem respond_parts {credentials : List Credential} (answered : respond s key request = .ok (next,credentials)) :
    ∃ caller, admitted s key request = .ok caller ∧ handle s caller request.now request.drawn request.route = .ok (next,credentials) := by
  unfold respond at answered
  split at answered
  · cases answered
  · rename_i caller admitted_
    exact ⟨caller,admitted_,answered⟩

-- Nothing a key does for someone adds a key.
theorem respond_keys {credentials : List Credential} (answered : respond s key request = .ok (next,credentials)) :
    ∀ row ∈ next.apiKeys, row ∈ s.apiKeys := by
  obtain ⟨caller,admitted_,handled⟩ := respond_parts answered
  obtain ⟨row,allowed⟩ := admitted_parts admitted_
  by_cases creates : ∃ payload, request.route = .createUser payload
  · obtain ⟨payload,route⟩ := creates
    rw [route] at handled
    obtain ⟨_,rfl,_⟩ := createUser_keys handled
    exact fun _ member => member
  · exact (handle_quiet allowed.spared (fun payload same => creates ⟨payload,same⟩) next credentials handled).2

theorem respond_quiet {credentials : List Credential} (none_ : makesAccount s key request = false)
    (answered : respond s key request = .ok (next,credentials)) : credentials = [] := by
  obtain ⟨caller,admitted_,handled⟩ := respond_parts answered
  obtain ⟨row,allowed⟩ := admitted_parts admitted_
  by_cases creates : ∃ payload, request.route = .createUser payload
  · obtain ⟨payload,route⟩ := creates
    rw [route] at handled
    obtain ⟨free,_,_⟩ := createUser_keys handled
    have makes := makesAccount_iff.mpr ⟨payload,caller,route,admitted_,free⟩
    exact absurd (none_.symm.trans makes) nofun
  · exact (handle_quiet allowed.spared (fun payload same => creates ⟨payload,same⟩) next credentials handled).1

theorem createUserRefusal_free {payload : UserCreate} (free : createUserRefusal s caller payload = none) :
    ∀ user ∈ s.accounts, user.emailAddress ≠ payload.emailAddress := by
  unfold createUserRefusal at free
  split at free
  · cases free
  · split at free
    · cases free
    · split at free
      · cases free
      · split at free
        · cases free
        · split at free
          · cases free
          · rename_i unused
            intro user there same
            exact unused (List.any_eq_true.mpr ⟨user,there,decide_eq_true same⟩)

-- The account it makes is signed in to with the password that was sent.
theorem newAccount_works {payload : UserCreate} (free : createUserRefusal s caller payload = none) :
    works {s with accounts := s.accounts ++ [newAccount caller payload]} (.password payload.password) = true := by
  have found : (s.accounts ++ [newAccount caller payload]).find? (fun user => user.emailAddress = payload.emailAddress) =
      some (newAccount caller payload) := by
    have others : s.accounts.find? (fun user => user.emailAddress = payload.emailAddress) = none := by
      apply List.find?_eq_none.mpr
      intro user there same
      exact createUserRefusal_free free user there (of_decide_eq_true same)
    rw [List.find?_append,others,Option.none_or]
    exact List.find?_cons_of_pos (decide_eq_true rfl)
  apply List.any_eq_true.mpr
  refine ⟨newAccount caller payload,List.mem_append_right _ (List.mem_singleton_self _),?_⟩
  unfold login
  change ((s.accounts ++ [newAccount caller payload]).find? (fun user => user.emailAddress = payload.emailAddress)).any _ = true
  rw [found]
  simp [newAccount]

def Gained (s : Holder) : Prop := ∃ credential ∈ s.held, works s.directory credential = true

def Narrow (key : String) (s : Directory) : Prop := ∀ row ∈ s.apiKeys, row.raw = key → wildcardScope ∉ row.scopes

theorem Narrow.preserved {s next : Holder} (narrow : Narrow key s.directory) (taken : step key s request = some next) : Narrow key next.directory := by
  unfold step at taken
  split at taken
  · rename_i answered
    cases taken
    exact fun row member => narrow row (respond_keys answered row member)
  · cases taken
    exact narrow

-- What let an accepted request through.
def Entitled (s : Directory) (key : String) (request : Request) : Prop :=
  ∃ row ∈ s.apiKeys, row.raw = key ∧ (∀ expires ∈ row.expiresAt, request.now < expires) ∧ impersonateScope ∈ row.scopes ∧
    (∃ needed, requiredScope request.route.method request.route.path = some needed ∧ needed ∈ row.scopes) ∧
    ∃ person ∈ s.accounts, person.id = request.actingFor ∧ person.organizationId = row.organizationId ∧ person.deactivatedAt = none

theorem Narrow.entitled (narrow : Narrow key s) {credentials : List Credential} (answered : respond s key request = .ok (next,credentials)) :
    Entitled s key request := by
  obtain ⟨caller,admitted_,_⟩ := respond_parts answered
  obtain ⟨row,allowed⟩ := admitted_parts admitted_
  obtain ⟨there,raw⟩ := allowed.key_
  refine ⟨row,there,raw,allowed.unexpired,allowed.impersonates,?_,caller,allowed.person_.1,allowed.person_.2,allowed.organization,allowed.active⟩
  have area := allowed.area
  unfold keyAllows at area
  rcases Bool.or_eq_true_iff.mp area with wild | named
  · exact absurd (List.contains_iff_mem.mp wild) (narrow row there raw)
  · obtain ⟨needed,scope,held⟩ := (Option.any_eq_true _ _).mp named
    exact ⟨needed,scope,List.contains_iff_mem.mp held⟩

def NoAccountMade (key : String) (s : Holder) (request : Request) : Prop := makesAccount s.directory key request = false

instance (s : Holder) (request : Request) : Decidable (NoAccountMade key s request) := inferInstanceAs (Decidable (_ = _))

instance (key : String) (s : Directory) : Decidable (Narrow key s) :=
  inferInstanceAs (Decidable (∀ row ∈ s.apiKeys, row.raw = key → wildcardScope ∉ row.scopes))

instance (s : Holder) : Decidable (Gained s) := inferInstanceAs (Decidable (∃ credential ∈ s.held, works s.directory credential = true))

def person (id : String) (role : InstitutionalRole) : Account :=
  ⟨id,"default",id,id ++ "@test.internal","Unused-Password-1",role,none,none,.openAdHoc,none,false,none⟩

-- A service account's key for the users area, and an administrator to act for.
def office : Directory :=
  ⟨[person "SVC001" .member,person "ADM001" .orgAdmin,person "FAC001" .staff],
    [⟨1,"default","ck_sync","sync","SVC001",["impersonate","users:write"],none⟩],[],[],[],2⟩

def acting (route : Route) : Request := ⟨"ADM001",route,0,"drawn"⟩

end ChronosLedger.ActingFor
