import ChronosLedger.AdminRequests
import Mathlib.Data.List.Nodup

namespace ChronosLedger.AdminRequests
open ActingFor

variable {d : Directory} {s next : AccountState} {k : Nat} {p : Pending} {callerId organizationId : String} {caller : Account} {change : Change}

-- An administrator who can sign in.
def Administers (organizationId : String) (user : Account) : Prop :=
  user.organizationId = organizationId ∧ user.roleType = .orgAdmin ∧ user.deactivatedAt = none

instance (organizationId : String) (user : Account) : Decidable (Administers organizationId user) :=
  inferInstanceAs (Decidable (_ ∧ _ ∧ _))

def Administered (d : Directory) (organizationId : String) : Prop := ∃ user ∈ d.accounts, Administers organizationId user

instance (d : Directory) (organizationId : String) : Decidable (Administered d organizationId) :=
  inferInstanceAs (Decidable (∃ user ∈ d.accounts, _))

-- Who asked for the deactivation that commits, and of whom.
def leaving (s : AccountState) : Operation → Option (String × String)
  | .commit k =>
    match s.requests[k]? with
    | some p =>
      match p.phase with
      | .written (.deactivate userId _ _) => some (p.callerId,userId)
      | _ => none
    | none => none
  | _ => none

-- Whoever deactivates an administrator is still there when it commits.
def Stands (s : AccountState) (op : Operation) : Prop := ∀ pair ∈ leaving s op,
  (∃ user ∈ s.committed.accounts, user.id = pair.2 ∧ user.roleType = .orgAdmin) →
    ∃ caller ∈ s.committed.accounts, caller.id = pair.1 ∧ caller.deactivatedAt = none

instance (s : AccountState) (op : Operation) : Decidable (Stands s op) :=
  inferInstanceAs (Decidable (∀ pair ∈ leaving s op,_))

-- An account never changes its id, its organization or its role.
def Known (d : Directory) (caller : Account) : Prop :=
  ∃ row ∈ d.accounts, row.id = caller.id ∧ row.organizationId = caller.organizationId ∧ row.roleType = caller.roleType

-- What a deactivation was allowed on.
def Entitled (d : Directory) (callerId : String) : Change → Prop
  | .deactivate userId organizationId _ => userId ≠ callerId ∧ ∃ caller ∈ d.accounts, ∃ user ∈ d.accounts, caller.id = callerId ∧ user.id = userId ∧
      caller.organizationId = organizationId ∧ user.organizationId = organizationId ∧ (user.roleType = .orgAdmin → caller.roleType = .orgAdmin)
  | _ => True

def Phase.asks : Phase → Option Change
  | .addressing _ _ change _ => some change
  | .managing _ _ change => some change
  | .climbing _ _ _ change _ => some change
  | .writing change => some change
  | .written change => some change
  | _ => none

structure Sound (s : AccountState) : Prop where
  keys : (s.committed.accounts.map Account.id).Nodup
  loaded : ∀ p ∈ s.requests, ∀ caller, p.phase = .authenticated caller → caller.id = p.callerId ∧ Known s.committed caller
  entitled : ∀ p ∈ s.requests, ∀ change, p.phase.asks = some change → Entitled s.committed p.callerId change
  fresh : ∀ p ∈ s.requests, ∀ user, p.phase = .written (.insert user) → user.id ∉ s.committed.accounts.map Account.id
  apart : ∀ (i j : Nat) (p q : Pending) (one two : Change), i ≠ j → s.requests[i]? = some p → s.requests[j]? = some q → p.phase.holds = some one → q.phase.holds = some two →
    one.userId ≠ two.userId

-- One account of an id.
theorem row_same (keys : (d.accounts.map Account.id).Nodup) {one two : Account} (left : one ∈ d.accounts) (right : two ∈ d.accounts)
    (same : one.id = two.id) : one = two := List.inj_on_of_nodup_map keys left right same

theorem setAccount_keys (keys : (d.accounts.map Account.id).Nodup) (id : String) {f : Account → Account} (kept : ∀ user, (f user).id = user.id) :
    ((setAccount d id f).accounts.map Account.id).Nodup := by
  have same : (setAccount d id f).accounts.map Account.id = d.accounts.map Account.id := by
    simp only [setAccount,List.map_map]
    apply List.map_congr_left
    intro user _
    simp only [Function.comp_apply]
    split <;> simp [kept]
  rw [same]
  exact keys

-- Whoever is not the account written to stays as they are.
theorem apply_others {user : Account} (there : user ∈ d.accounts) (other : user.id ≠ change.userId) : user ∈ (change.apply d).accounts := by
  have same : ∀ f, user ∈ (setAccount d change.userId f).accounts := by
    intro f
    refine List.mem_map.mpr ⟨user,there,?_⟩
    simp [other]
  cases change with
  | insert new => exact List.mem_append_left _ there
  | update userId fields => exact same fields.apply
  | deactivate userId organizationId now => exact same _
  | reactivate userId => exact same _

theorem Known.applied (known : Known d caller) (change : Change) : Known (change.apply d) caller := by
  obtain ⟨row,there,id,organization,role⟩ := known
  have moved : ∀ userId f, (∀ user, (f user).id = user.id ∧ (f user).organizationId = user.organizationId ∧ (f user).roleType = user.roleType) →
      Known (setAccount d userId f) caller := by
    intro userId f kept
    refine ⟨if row.id = userId then f row else row,List.mem_map.mpr ⟨row,there,rfl⟩,?_⟩
    obtain ⟨one,two,three⟩ := kept row
    split
    · exact ⟨one.trans id,two.trans organization,three.trans role⟩
    · exact ⟨id,organization,role⟩
  cases change with
  | insert new => exact ⟨row,List.mem_append_left _ there,id,organization,role⟩
  | update userId fields => exact moved userId fields.apply (fun _ => ⟨rfl,rfl,rfl⟩)
  | deactivate userId organizationId now => exact moved userId _ (fun _ => ⟨rfl,rfl,rfl⟩)
  | reactivate userId => exact moved userId _ (fun _ => ⟨rfl,rfl,rfl⟩)

theorem Entitled.applied {asked : Change} (entitled : Entitled d callerId asked) (change : Change) : Entitled (change.apply d) callerId asked := by
  cases asked with
  | deactivate userId organizationId now =>
    obtain ⟨apart,caller,there,user,here,names,named,ours,theirs,role⟩ := entitled
    obtain ⟨caller',there',id,organization,roles⟩ := Known.applied ⟨caller,there,rfl,rfl,rfl⟩ change
    obtain ⟨user',here',id',organization',roles'⟩ := Known.applied ⟨user,here,rfl,rfl,rfl⟩ change
    exact ⟨apart,caller',there',user',here',id.trans names,id'.trans named,organization.trans ours,organization'.trans theirs,
      fun admin => roles.trans (role (roles'.symm.trans admin))⟩
  | insert new => trivial
  | update userId fields => trivial
  | reactivate userId => trivial

theorem apply_keys (keys : (d.accounts.map Account.id).Nodup) (fresh : ∀ user, change = .insert user → user.id ∉ d.accounts.map Account.id) :
    ((change.apply d).accounts.map Account.id).Nodup := by
  cases change with
  | insert new =>
    simp only [Change.apply,List.map_append,List.map_cons,List.map_nil]
    apply List.Nodup.append keys (List.nodup_singleton _)
    simpa using fresh new rfl
  | update userId fields => exact setAccount_keys keys userId (f := fields.apply) (fun _ => rfl)
  | deactivate userId organizationId now => exact setAccount_keys keys userId (fun _ => rfl)
  | reactivate userId => exact setAccount_keys keys userId (fun _ => rfl)

-- What a statement may leave a request with.
structure Enters (d : Directory) (callerId : String) (phase : Phase) : Prop where
  loaded : ∀ caller, phase = .authenticated caller → caller.id = callerId ∧ Known d caller
  entitled : ∀ change, phase.asks = some change → Entitled d callerId change

theorem Enters.over (d : Directory) (callerId : String) (answer : Answer) : Enters d callerId (.over answer) where
  loaded := fun _ same => by cases same
  entitled := fun _ same => by cases same

theorem setPhase_at {phase : Phase} {j : Nat} {q : Pending} (found_ : (setPhase s k p phase).requests[j]? = some q) :
    (j = k ∧ q = {p with phase := phase}) ∨ (j ≠ k ∧ s.requests[j]? = some q) := by
  unfold setPhase at found_
  rw [List.getElem?_set] at found_
  split at found_
  · rename_i here
    split at found_
    · exact .inl ⟨here.symm,(Option.some.inj found_).symm⟩
    · cases found_
  · rename_i off
    exact .inr ⟨fun same => off same.symm,found_⟩

theorem mem_setPhase {phase : Phase} {q : Pending} (member : q ∈ (setPhase s k p phase).requests) :
    q = {p with phase := phase} ∨ q ∈ s.requests := by
  obtain ⟨j,at_⟩ := List.mem_iff_getElem?.mp member
  rcases setPhase_at at_ with ⟨_,same⟩ | ⟨_,old⟩
  · exact .inl same
  · exact .inr (List.mem_of_getElem? old)

-- A request that goes on without holding anything.
theorem Sound.phased (sound : Sound s) {phase : Phase} (enters : Enters s.committed p.callerId phase) (holds : phase.holds = none) :
    Sound (setPhase s k p phase) := by
  refine ⟨sound.keys,?_,?_,?_,?_⟩
  · intro q member caller loaded
    rcases mem_setPhase member with rfl | old
    · exact enters.loaded caller loaded
    · exact sound.loaded q old caller loaded
  · intro q member change asked
    rcases mem_setPhase member with rfl | old
    · exact enters.entitled change asked
    · exact sound.entitled q old change asked
  · intro q member user written
    rcases mem_setPhase member with rfl | old
    · simp only at written
      simp [written,Phase.holds] at holds
    · exact sound.fresh q old user written
  · intro i j q r one two apart left right held held'
    rcases setPhase_at left with ⟨_,rfl⟩ | ⟨_,old⟩
    · simp [holds] at held
    · rcases setPhase_at right with ⟨_,rfl⟩ | ⟨_,old'⟩
      · simp [holds] at held'
      · exact sound.apart i j q r one two apart old old' held held'

-- Nor one that only asks for what its caller may ask for.
theorem asking_enters {phase : Phase} (asks : phase.asks = some change) (free : Entitled d callerId change) (holds : phase.holds = none) :
    Enters d callerId phase ∧ phase.holds = none := by
  refine ⟨⟨?_,?_⟩,holds⟩
  · intro caller same
    rw [same] at asks
    cases asks
  · intro other same
    cases asks.symm.trans same
    exact free

theorem ready_enters (free : Entitled d callerId change) : Enters d callerId (ready change) ∧ (ready change).holds = none := by
  unfold ready
  split
  · exact ⟨.over _ _ _,rfl⟩
  · exact asking_enters rfl free rfl

theorem refuse_enters (d : Directory) (callerId : String) (refusal : Refusal) :
    Enters d callerId (refuse refusal) ∧ (refuse refusal).holds = none := ⟨.over _ _ _,rfl⟩

theorem climb_enters (free : Entitled d callerId change) (organizationId manager : String) (seen : List String) (above : Option String) :
    Enters d callerId (climb organizationId manager change seen above) ∧ (climb organizationId manager change seen above).holds = none := by
  cases above with
  | none => exact ready_enters free
  | some above =>
    simp only [climb]
    by_cases met : above ∈ seen
    · simp only [met,if_true]
      exact ready_enters free
    · by_cases loop : above = change.userId
      · rw [if_neg met,if_pos loop]
        exact refuse_enters _ _ _
      · rw [if_neg met,if_neg loop]
        exact asking_enters rfl free rfl

theorem managed_enters (free : Entitled d callerId change) (organizationId : String) (manager : Option String) :
    Enters d callerId (managed organizationId change manager) ∧ (managed organizationId change manager).holds = none := by
  cases manager with
  | none => exact ready_enters free
  | some manager =>
    simp only [managed]
    by_cases own : manager = change.userId
    · simp only [own,if_true]
      exact refuse_enters _ _ _
    · simp only [own,if_false]
      exact asking_enters rfl free rfl

theorem passRoles_parts {request : Request} (caller : Account) :
    passRoles caller request = .authenticated caller ∨ ∃ refusal, passRoles caller request = refuse refusal := by
  cases request with
  | createUser payload =>
    unfold passRoles
    by_cases role : (!isAdmin caller.roleType) = true
    · exact .inr ⟨_,if_pos role⟩
    · by_cases admin : (isAdmin payload.roleType && caller.roleType ≠ .orgAdmin) = true
      · exact .inr ⟨_,(if_neg role).trans (if_pos admin)⟩
      · by_cases scope : (!inUnitScope caller payload.unitCode) = true
        · exact .inr ⟨_,(if_neg role).trans ((if_neg admin).trans (if_pos scope))⟩
        · exact .inl ((if_neg role).trans ((if_neg admin).trans (if_neg scope)))
  | _ =>
    unfold passRoles
    by_cases role : isAdmin caller.roleType = true
    · exact .inl (if_pos role)
    · exact .inr ⟨_,if_neg role⟩

theorem authenticate_enters (d : Directory) (callerId : String) (byKey : Bool) (request : Request) :
    Enters d callerId (authenticate d callerId byKey request) ∧ (authenticate d callerId byKey request).holds = none := by
  unfold authenticate getCurrentUser
  cases known : accountAt d callerId with
  | none => exact refuse_enters _ _ _
  | some user =>
    have there : user ∈ d.accounts := List.mem_of_find?_eq_some known
    have named : user.id = callerId := by simpa using List.find?_some known
    by_cases active : user.deactivatedAt = none
    · simp only [active,if_true]
      split
      · exact ⟨.over _ _ _,rfl⟩
      · rcases @passRoles_parts request user with admitted | ⟨refusal,refused⟩
        · rw [admitted]
          refine ⟨⟨?_,fun _ same => by cases same⟩,rfl⟩
          intro caller same
          cases same
          exact ⟨named,user,there,rfl,rfl,rfl⟩
        · rw [refused]
          exact refuse_enters _ _ _
    · simp only [active,if_false]
      exact refuse_enters _ _ _

theorem accountIn_parts {id : String} {user : Account} (found_ : accountIn d organizationId id = some user) :
    user ∈ d.accounts ∧ user.id = id ∧ user.organizationId = organizationId := by
  have both := List.find?_some found_
  simp only [Bool.and_eq_true,decide_eq_true_eq] at both
  exact ⟨List.mem_of_find?_eq_some found_,both.1,both.2⟩

theorem managedAccount_parts {userId : String} {user : Account} (allowed : managedAccount d caller userId = .ok user) :
    user ∈ d.accounts ∧ user.id = userId ∧ user.organizationId = caller.organizationId ∧ (isAdmin user.roleType = true → caller.roleType = .orgAdmin) := by
  unfold managedAccount at allowed
  split at allowed
  · split at allowed
    · cases allowed
    · rename_i row found_
      obtain ⟨there,named,ours⟩ := accountIn_parts found_
      split at allowed
      · cases allowed
      · rename_i free
        split at allowed
        · cases allowed
        · cases allowed
          exact ⟨there,named,ours,by simpa using free⟩
  · cases allowed

-- The target a session reads, when it is not the session's own caller.
theorem sessionOf_other {user : Account} (there : user ∈ (sessionOf d caller).accounts) (other : user.id ≠ caller.id) : user ∈ d.accounts := by
  obtain ⟨row,stored,same⟩ := List.mem_map.mp there
  split at same
  · exact absurd (congrArg Account.id same.symm) other
  · exact same ▸ stored

theorem readTarget_enters (known : Known d caller) (now : Int) (request : Request) :
    Enters d caller.id (readTarget d caller now request) ∧ (readTarget d caller now request).holds = none := by
  cases request with
  | createUser payload =>
    unfold readTarget
    dsimp only
    split
    · exact refuse_enters _ _ _
    · exact asking_enters rfl trivial rfl
  | updateUser userId payload =>
    unfold readTarget
    dsimp only
    cases managedAccount (sessionOf d caller) caller userId with
    | error refusal => exact refuse_enters _ _ _
    | ok user =>
      dsimp only
      split
      · exact refuse_enters _ _ _
      · cases payload.emailAddress with
        | none => exact @managed_enters d caller.id (.update _ _) trivial _ _
        | some email =>
          exact asking_enters rfl trivial rfl
  | deactivateUser userId =>
    unfold readTarget
    dsimp only
    cases allowed : managedAccount (sessionOf d caller) caller userId with
    | error refusal => exact refuse_enters _ _ _
    | ok user =>
      dsimp only
      by_cases own : user.id = caller.id
      · rw [if_pos own]
        exact refuse_enters _ _ _
      · rw [if_neg own]
        split
        · exact ⟨.over _ _ _,rfl⟩
        · obtain ⟨there,_,ours,power⟩ := managedAccount_parts allowed
          obtain ⟨row,stored,id,organization,role⟩ := known
          refine asking_enters rfl ?_ rfl
          refine ⟨own,row,stored,user,sessionOf_other there own,id,rfl,organization,ours,?_⟩
          intro admin
          exact role.trans (power (by simp [isAdmin,admin]))
  | reactivateUser userId =>
    unfold readTarget
    dsimp only
    cases managedAccount (sessionOf d caller) caller userId with
    | error refusal => exact refuse_enters _ _ _
    | ok user =>
      dsimp only
      split
      · exact ⟨.over _ _ _,rfl⟩
      · exact asking_enters rfl trivial rfl

theorem Sound.reads (sound : Sound s) {now : Int} (taken : read s k now = some next) : Sound next := by
  unfold read at taken
  cases here : s.requests[k]? with
  | none => simp [here] at taken
  | some p =>
    have there := List.mem_of_getElem? here
    simp only [here] at taken
    cases at_ : p.phase with
    | arrived =>
      simp only [at_,Option.some.injEq] at taken
      subst taken
      obtain ⟨enters,holds⟩ := authenticate_enters s.committed p.callerId p.byKey p.request
      exact sound.phased enters holds
    | authenticated caller =>
      simp only [at_,Option.some.injEq] at taken
      subst taken
      obtain ⟨names,known⟩ := sound.loaded p there caller at_
      obtain ⟨enters,holds⟩ := readTarget_enters known now p.request
      exact sound.phased (names ▸ enters) holds
    | addressing organizationId email change manager =>
      simp only [at_,Option.some.injEq] at taken
      subst taken
      have free := sound.entitled p there change (by rw [at_]; rfl)
      unfold readEmail
      split
      · exact sound.phased (refuse_enters _ _ _).1 rfl
      · obtain ⟨enters,holds⟩ := managed_enters free organizationId manager
        exact sound.phased enters holds
    | managing organizationId manager change =>
      simp only [at_,Option.some.injEq] at taken
      subst taken
      have free := sound.entitled p there change (by rw [at_]; rfl)
      unfold readManager
      cases accountIn s.committed organizationId manager with
      | none => exact sound.phased (refuse_enters _ _ _).1 rfl
      | some row =>
        dsimp only
        split
        · exact sound.phased (refuse_enters _ _ _).1 rfl
        · obtain ⟨enters,holds⟩ := climb_enters free organizationId manager [manager] row.reportingLineManager
          exact sound.phased enters holds
    | climbing organizationId manager above change seen =>
      simp only [at_,Option.some.injEq] at taken
      subst taken
      have free := sound.entitled p there change (by rw [at_]; rfl)
      obtain ⟨enters,holds⟩ := climb_enters free organizationId manager seen
        ((accountIn s.committed organizationId above).bind Account.reportingLineManager)
      exact sound.phased enters holds
    | _ => simp [at_] at taken

theorem waits_free (free : waits s change = false) {q : Pending} (there : q ∈ s.requests) {other : Change} (held : q.phase.holds = some other) :
    other.userId ≠ change.userId := by
  intro same
  have none := List.any_eq_false.mp free q there
  simp [held,same] at none

theorem Sound.writes (sound : Sound s) (taken : write s k = some next) : Sound next := by
  unfold write at taken
  cases here : s.requests[k]? with
  | none => simp [here] at taken
  | some p =>
    have there := List.mem_of_getElem? here
    simp only [here] at taken
    split at taken
    · rename_i change at_
      by_cases held : waits s change = true
      · simp [held] at taken
      · have free : waits s change = false := by simpa using held
        simp only [free,Bool.false_eq_true,if_false] at taken
        by_cases collides : change.collides s.committed = true
        · simp only [collides,if_true,Option.some.injEq] at taken
          subst taken
          exact sound.phased (.over _ _ _) rfl
        · simp only [collides,Bool.false_eq_true,if_false,Option.some.injEq] at taken
          subst taken
          refine ⟨sound.keys,?_,?_,?_,?_⟩
          · intro q member caller loaded
            rcases mem_setPhase member with rfl | old
            · cases loaded
            · exact sound.loaded q old caller loaded
          · intro q member other asked
            rcases mem_setPhase member with rfl | old
            · cases asked
              exact sound.entitled p there change (by rw [at_]; rfl)
            · exact sound.entitled q old other asked
          · intro q member user written
            rcases mem_setPhase member with rfl | old
            · cases written
              intro stored
              obtain ⟨row,inside,same⟩ := List.mem_map.mp stored
              apply collides
              simp only [Change.collides,Bool.or_eq_true,List.any_eq_true,decide_eq_true_eq]
              exact .inl ⟨row,inside,same⟩
            · exact sound.fresh q old user written
          · intro i j q r one two apart left right heldOne heldTwo
            rcases setPhase_at left with ⟨first,rfl⟩ | ⟨_,old⟩
            · rcases setPhase_at right with ⟨second,_⟩ | ⟨_,old'⟩
              · exact absurd (first.trans second.symm) apart
              · cases heldOne
                exact (waits_free free (List.mem_of_getElem? old') heldTwo).symm
            · rcases setPhase_at right with ⟨_,rfl⟩ | ⟨_,old'⟩
              · cases heldTwo
                exact waits_free free (List.mem_of_getElem? old) heldOne
              · exact sound.apart i j q r one two apart old old' heldOne heldTwo
    · cases taken

theorem commit_parts (taken : commit s k = some next) : ∃ p change, s.requests[k]? = some p ∧ p.phase = .written change ∧
    next = {setPhase s k p (.over .done) with committed := change.apply s.committed} := by
  unfold commit at taken
  cases here : s.requests[k]? with
  | none => simp [here] at taken
  | some p =>
    simp only [here] at taken
    split at taken
    · rename_i change at_
      exact ⟨p,change,rfl,at_,(Option.some.inj taken).symm⟩
    · cases taken

theorem apply_ids {id : String} (stored : id ∈ (change.apply d).accounts.map Account.id) : id ∈ d.accounts.map Account.id ∨ id = change.userId := by
  have same : ∀ (userId : String) (f : Account → Account), (∀ user, (f user).id = user.id) →
      id ∈ (setAccount d userId f).accounts.map Account.id → id ∈ d.accounts.map Account.id := by
    intro userId f kept there
    simp only [setAccount,List.map_map,List.mem_map,Function.comp_apply] at there
    obtain ⟨row,inside,rfl⟩ := there
    refine List.mem_map.mpr ⟨row,inside,?_⟩
    split <;> simp [kept]
  cases change with
  | insert new =>
    simp only [Change.apply,List.map_append,List.mem_append,List.map_cons,List.map_nil,List.mem_singleton] at stored
    exact stored
  | update userId fields => exact .inl (same userId fields.apply (fun _ => rfl) stored)
  | deactivate userId organizationId now => exact .inl (same userId _ (by intro user; rfl) stored)
  | reactivate userId => exact .inl (same userId _ (by intro user; rfl) stored)

theorem Sound.commits (sound : Sound s) (taken : commit s k = some next) : Sound next := by
  obtain ⟨p,change,here,at_,rfl⟩ := commit_parts taken
  have held : p.phase.holds = some change := by rw [at_]; rfl
  have rest : Sound (setPhase s k p (.over .done)) := sound.phased (.over _ _ _) rfl
  refine ⟨?_,?_,?_,?_,rest.apart⟩
  · refine apply_keys sound.keys ?_
    rintro user rfl
    exact sound.fresh p (List.mem_of_getElem? here) user at_
  · intro q member caller loaded
    obtain ⟨names,known⟩ := rest.loaded q member caller loaded
    exact ⟨names,known.applied change⟩
  · intro q member asked held'
    exact (rest.entitled q member asked held').applied change
  · intro q member user written stored
    rcases apply_ids stored with old | new
    · exact rest.fresh q member user written old
    · obtain ⟨j,other⟩ := List.mem_iff_getElem?.mp member
      rcases setPhase_at other with ⟨_,rfl⟩ | ⟨off,old⟩
      · cases written
      · exact sound.apart j k q p (.insert user) change off old here (by rw [written]; rfl) held new

theorem Sound.rollsBack (sound : Sound s) (taken : rollback s k = some next) : Sound next := by
  unfold rollback at taken
  cases here : s.requests[k]? with
  | none => simp [here] at taken
  | some p =>
    simp only [here] at taken
    split at taken
    · cases taken
    · cases taken
      exact sound.phased (.over _ _ _) rfl

theorem Sound.arrives (sound : Sound s) (callerId : String) (byKey : Bool) (request : Request) :
    Sound {s with requests := s.requests ++ [⟨callerId,byKey,request,.arrived⟩]} := by
  have one : ∀ q ∈ s.requests ++ [⟨callerId,byKey,request,.arrived⟩], q ∈ s.requests ∨ q.phase = .arrived := by
    intro q member
    rcases List.mem_append.mp member with old | new
    · exact .inl old
    · exact .inr (by rw [List.mem_singleton.mp new])
  refine ⟨sound.keys,?_,?_,?_,?_⟩
  · intro q member caller loaded
    rcases one q member with old | new
    · exact sound.loaded q old caller loaded
    · rw [new] at loaded
      cases loaded
  · intro q member change asked
    rcases one q member with old | new
    · exact sound.entitled q old change asked
    · rw [new] at asked
      cases asked
  · intro q member user written
    rcases one q member with old | new
    · exact sound.fresh q old user written
    · rw [new] at written
      cases written
  · have old : ∀ (i : Nat) (q : Pending) (held : Change), (s.requests ++ [⟨callerId,byKey,request,.arrived⟩])[i]? = some q →
        q.phase.holds = some held → s.requests[i]? = some q := by
      intro i q held at_ holds
      by_cases inside : i < s.requests.length
      · rwa [List.getElem?_append_left inside] at at_
      · rw [List.getElem?_append_right (by omega)] at at_
        have last : q = ⟨callerId,byKey,request,.arrived⟩ := List.mem_singleton.mp (List.mem_of_getElem? at_)
        rw [last] at holds
        cases holds
    intro i j q r held held' apart left right holds holds'
    exact sound.apart i j q r held held' apart (old i q held left holds) (old j r held' right holds') holds holds'

theorem Sound.preserved (sound : Sound s) {op : Operation} (taken : step s op = some next) : Sound next := by
  cases op with
  | arrive callerId byKey request =>
    cases taken
    exact sound.arrives callerId byKey request
  | read k now => exact sound.reads taken
  | write k => exact sound.writes taken
  | commit k => exact sound.commits taken
  | rollback k => exact sound.rollsBack taken

-- Only a deactivation takes an administrator away.
theorem apply_keeps (standing : Administered d organizationId) (other : ∀ userId organizationId now, change ≠ .deactivate userId organizationId now) :
    Administered (change.apply d) organizationId := by
  obtain ⟨user,there,ours,role,active⟩ := standing
  have moved : ∀ (userId : String) (f : Account → Account), Administers organizationId (f user) →
      Administered (setAccount d userId f) organizationId := by
    intro userId f kept
    refine ⟨if user.id = userId then f user else user,List.mem_map.mpr ⟨user,there,rfl⟩,?_⟩
    split
    · exact kept
    · exact ⟨ours,role,active⟩
  cases change with
  | insert new => exact ⟨user,List.mem_append_left _ there,ours,role,active⟩
  | update userId fields => exact moved userId fields.apply ⟨ours,role,active⟩
  | deactivate userId organizationId now => exact absurd rfl (other userId organizationId now)
  | reactivate userId => exact moved userId _ ⟨ours,role,rfl⟩

theorem deactivated_left {userId other : String} {now : Int} (standing : Administered (Change.apply d (.deactivate userId other now)) organizationId) :
    ∃ user ∈ d.accounts, Administers organizationId user ∧ user.id ≠ userId := by
  obtain ⟨user,there,admin⟩ := standing
  obtain ⟨row,stored,same⟩ := List.mem_map.mp there
  split at same
  · have gone := admin.2.2
    rw [← same] at gone
    cases gone
  · rename_i apart
    exact ⟨row,stored,same ▸ admin,apart⟩

theorem read_committed {now : Int} (taken : read s k now = some next) : next.committed = s.committed := by
  unfold read at taken
  split at taken
  · cases taken
  · split at taken <;> cases taken <;> rfl

theorem write_committed (taken : write s k = some next) : next.committed = s.committed := by
  unfold write at taken
  split at taken
  · cases taken
  · split at taken
    · split at taken
      · cases taken
      · split at taken <;> cases taken <;> rfl
    · cases taken

theorem rollback_committed (taken : rollback s k = some next) : next.committed = s.committed := by
  unfold rollback at taken
  split at taken
  · cases taken
  · split at taken <;> cases taken
    rfl

-- One step: an organization keeps an administrator exactly when the one who
-- deactivates is still there, or a third one is.
theorem step_exact (sound : Sound s) (standing : Administered s.committed organizationId) {op : Operation} (taken : step s op = some next) :
    Administered next.committed organizationId ↔ Stands s op ∨
      ∃ user ∈ s.committed.accounts, Administers organizationId user ∧ ∀ pair ∈ leaving s op, user.id ≠ pair.2 := by
  have quiet : leaving s op = none → next.committed = s.committed → (Administered next.committed organizationId ↔ Stands s op ∨
      ∃ user ∈ s.committed.accounts, Administers organizationId user ∧ ∀ pair ∈ leaving s op, user.id ≠ pair.2) := by
    intro none same
    rw [same]
    exact iff_of_true standing (.inl (by simp [Stands,none]))
  cases op with
  | arrive callerId byKey request =>
    cases taken
    exact quiet rfl rfl
  | read k now => exact quiet rfl (read_committed taken)
  | write k => exact quiet rfl (write_committed taken)
  | rollback k => exact quiet rfl (rollback_committed taken)
  | commit k =>
    obtain ⟨p,change,here,at_,rfl⟩ := commit_parts taken
    by_cases going : ∃ userId other now, change = .deactivate userId other now
    · obtain ⟨userId,other,now,rfl⟩ := going
      have leaves : leaving s (.commit k) = some (p.callerId,userId) := by simp [leaving,here,at_]
      have others := fun {user} => @apply_others s.committed (.deactivate userId other now) user
      simp only [Stands,leaves,Option.mem_some_iff,forall_eq']
      constructor
      · intro left
        exact .inr (deactivated_left left)
      · intro kept
        rcases kept with stands | ⟨user,there,admin,apart⟩
        · obtain ⟨user,there,admin⟩ := standing
          by_cases same : user.id = userId
          · obtain ⟨apart,caller,stored,target,aimed,names,named,ours,theirs,power⟩ :=
              sound.entitled p (List.mem_of_getElem? here) _ (by rw [at_]; rfl)
            have equal : target = user := row_same sound.keys aimed there (named.trans same.symm)
            obtain ⟨found_,stored',names',active⟩ := stands ⟨user,there,same,admin.2.1⟩
            have still : found_ = caller := row_same sound.keys stored' stored (names'.trans names.symm)
            have role : caller.roleType = .orgAdmin := power (equal ▸ admin.2.1)
            have organization : caller.organizationId = organizationId := by
              rw [ours,← theirs,equal]
              exact admin.1
            have off : caller.id ≠ userId := fun meets => apart (meets.symm.trans names)
            exact ⟨caller,others stored off,organization,role,still ▸ active⟩
          · exact ⟨user,others there same,admin⟩
        · exact ⟨user,others there apart,admin⟩
    · have other : ∀ userId organizationId now, change ≠ .deactivate userId organizationId now :=
        fun userId organizationId now same => going ⟨userId,organizationId,now,same⟩
      have leaves : leaving s (.commit k) = none := by
        cases change with
        | deactivate userId organizationId now => exact absurd rfl (other userId organizationId now)
        | _ => simp [leaving,here,at_]
      exact iff_of_true (apply_keeps standing other) (.inl (by simp [Stands,leaves]))

theorem sound_start {committed : Directory} (keys : (committed.accounts.map Account.id).Nodup) : Sound (.start committed) :=
  ⟨keys,fun _ member => absurd member List.not_mem_nil,fun _ member => absurd member List.not_mem_nil,
    fun _ member => absurd member List.not_mem_nil,fun _ _ _ _ _ _ _ left => by simp [AccountState.start] at left⟩

theorem sound_reached {committed : Directory} (keys : (committed.accounts.map Account.id).Nodup) (path : Runs.Reached Steps (.start committed) s) :
    Sound s := path.invariant Sound (sound_start keys) (fun _ _ _ sound taken => sound.preserved taken)

-- A run in which nobody is deactivated by someone who has been deactivated since
-- never leaves an organization without an administrator; and any other step
-- leaves it without one exactly when it takes the only one there is.
theorem last_admin_stands (committed : Directory) (keys : (committed.accounts.map Account.id).Nodup) (organizationId : String)
    (standing : Administered committed organizationId) :
    (∀ s, Runs.Reached (Runs.Guarded Steps Stands) (.start committed) s → Administered s.committed organizationId) ∧
    ∀ s op next, Runs.Reached Steps (.start committed) s → Steps s op next → Administered s.committed organizationId →
      (Administered next.committed organizationId ↔ Stands s op ∨
        ∃ user ∈ s.committed.accounts, Administers organizationId user ∧ ∀ pair ∈ leaving s op, user.id ≠ pair.2) := by
  constructor
  · intro s path
    have both : Sound s ∧ Administered s.committed organizationId := by
      apply path.invariant (fun s => Sound s ∧ Administered s.committed organizationId) ⟨sound_start keys,standing⟩
      intro s op next kept taken
      exact ⟨kept.1.preserved taken.2,(step_exact kept.1 kept.2 taken.2).mpr (.inl taken.1)⟩
    exact both.2
  · intro s op next path taken still
    exact step_exact (sound_reached keys path) still taken

def adminOf (id : String) : Account := ⟨id,"default",id,id ++ "@example.org","secret",.orgAdmin,none,none,.openAdHoc,none,false,none⟩

def twoAdmins : Directory := ⟨[adminOf "ada",adminOf "grace"],[],[],[],[],1⟩

def oneAfterTheOther : List Operation := [.arrive "ada" false (.deactivateUser "grace"),.read 0 1,.read 0 1,.write 0,.commit 0,
  .arrive "grace" false (.deactivateUser "ada"),.read 1 2]

def bothAtOnce : List Operation := [.arrive "ada" false (.deactivateUser "grace"),.arrive "grace" false (.deactivateUser "ada"),
  .read 0 1,.read 1 1,.read 0 1,.read 1 1,.write 0,.write 1,.commit 0,.commit 1]

theorem second_admin_refused : ∃ s, Runs.trace step Stands (.start twoAdmins) oneAfterTheOther = some s ∧ Administered s.committed "default" ∧
    ∃ p, s.requests[1]? = some p ∧ p.phase = refuse ⟨401,"Account deactivated",.accountDeactivated⟩ := by
  have done : ∃ s, Runs.trace step Stands (.start twoAdmins) oneAfterTheOther = some s ∧
      ∃ p, s.requests[1]? = some p ∧ p.phase = refuse ⟨401,"Account deactivated",.accountDeactivated⟩ := ⟨_,rfl,_,rfl,rfl⟩
  obtain ⟨s,run,told⟩ := done
  exact ⟨s,run,(last_admin_stands twoAdmins (by decide) "default" (by decide)).1 s (Runs.trace_reached .start run),told⟩

theorem admins_deactivate_each_other : ¬ ∀ committed organizationId, (committed.accounts.map Account.id).Nodup →
    Administered committed organizationId → ∀ s, Runs.Reached Steps (.start committed) s → Administered s.committed organizationId := by
  intro claimed
  have done : ∃ s, Runs.trace step (fun _ _ => True) (.start twoAdmins) bothAtOnce = some s ∧ ¬ Administered s.committed "default" :=
    ⟨_,rfl,by decide⟩
  obtain ⟨s,run,gone⟩ := done
  exact gone (claimed twoAdmins "default" (by decide) (by decide) s (Runs.trace_reached .start run).unguard)

end ChronosLedger.AdminRequests
