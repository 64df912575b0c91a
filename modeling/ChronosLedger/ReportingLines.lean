import ChronosLedger.ActingFor
import ChronosLedger.Library.Worklist

namespace ChronosLedger.ReportingLines
open ActingFor Relation Worklist

variable {s next : Directory} {organizationId userId managerId : String} {caller : Account}

-- A person and whoever they report to.
def Reports (s : Directory) (one two : String) : Prop := ∃ user ∈ s.accounts, user.id = one ∧ user.reportingLineManager = some two

-- Only create_user and update_user write the column, and both look the manager
-- up in the caller's organization, which is the user's.
def Inside (s : Directory) : Prop := ∀ user ∈ s.accounts, ∀ manager ∈ user.reportingLineManager,
  ∃ boss ∈ s.accounts, boss.id = manager ∧ boss.organizationId = user.organizationId

inductive Request where
  | createUser (payload : UserCreate)
  | updateUser (userId : String) (payload : UserUpdate)
  deriving DecidableEq, Repr

def perform (s : Directory) (callerId : String) (request : Request) : Outcome :=
  match getCurrentUser s callerId with
  | .error refusal => .error refusal
  | .ok caller =>
    match request with
    | .createUser payload => createUser s caller payload
    | .updateUser userId payload => updateUser s caller userId payload

-- A refused request is rolled back.
def step (s : Directory) (op : String × Request) : Directory :=
  match perform s op.1 op.2 with
  | .ok (next,_) => next
  | .error _ => s

abbrev Steps (s : Directory) (op : String × Request) (next : Directory) : Prop := step s op = next

def above (s : Directory) (organizationId id : String) : Option String := (accountIn s organizationId id).bind Account.reportingLineManager

-- The loop of _check_manager as a search: it answers, or has not ended by then.
def walk (s : Directory) (organizationId userId managerId : String) : Option Bool :=
  search (fun id => (above s organizationId id).toList) userId (s.accounts.length+1) [managerId] (above s organizationId managerId).toList

theorem reportsTo_search (fuel : Nat) {seen : List String} (unseen : userId ∉ seen) (current : Option String) :
    reportsTo s organizationId userId fuel seen current =
      (search (fun id => (above s organizationId id).toList) userId fuel seen current.toList).getD false := by
  induction fuel generalizing seen current with
  | zero => cases current <;> rfl
  | succ fuel ih =>
    cases current with
    | none => rfl
    | some here =>
      simp only [reportsTo,Option.toList_some,search]
      by_cases old : here ∈ seen
      · have other : here ≠ userId := fun same => unseen (same ▸ old)
        rw [if_pos old,if_neg other,if_pos old]
        cases fuel <;> rfl
      · rw [if_neg old,if_neg old]
        by_cases reached : here = userId
        · rw [if_pos reached,if_pos reached]
          rfl
        · rw [if_neg reached,if_neg reached,List.append_nil]
          apply ih
          simp only [List.mem_cons,not_or]
          exact ⟨fun same => reached same.symm,unseen⟩

theorem accountIn_parts {id : String} {user : Account} (found_ : accountIn s organizationId id = some user) :
    user ∈ s.accounts ∧ user.id = id ∧ user.organizationId = organizationId := by
  have both := List.find?_some found_
  simp only [Bool.and_eq_true,decide_eq_true_eq] at both
  exact ⟨List.mem_of_find?_eq_some found_,both.1,both.2⟩

-- The links of one organization.
def links (s : Directory) (organizationId : String) : List (String × String) :=
  s.accounts.filterMap (fun user => if user.organizationId = organizationId then user.reportingLineManager.map (fun manager => (user.id,manager)) else none)

theorem above_link {id manager : String} (reports : above s organizationId id = some manager) : (id,manager) ∈ links s organizationId := by
  obtain ⟨user,found_,line⟩ := Option.bind_eq_some_iff.mp reports
  obtain ⟨there,named,ours⟩ := accountIn_parts found_
  exact List.mem_filterMap.mpr ⟨user,there,by simp [ours,line,named]⟩

theorem above_few (s : Directory) (organizationId id : String) :
    (above s organizationId id).toList.length ≤ ((links s organizationId).filter (fun link => link.1 = id)).length := by
  cases reports : above s organizationId id with
  | none => simp
  | some manager =>
    have listed : (id,manager) ∈ (links s organizationId).filter (fun link => link.1 = id) :=
      List.mem_filter.mpr ⟨above_link reports,by simp⟩
    exact List.length_pos_of_mem listed

-- On every graph the walk ends: the manager's own link is never followed again.
theorem walk_ends (s : Directory) (organizationId userId managerId : String) : ∃ found, walk s organizationId userId managerId = some found := by
  unfold walk
  cases reports : above s organizationId managerId with
  | none => exact ⟨false,rfl⟩
  | some manager =>
    apply search_ends (above_few s organizationId)
    have all : (links s organizationId).length ≤ s.accounts.length := List.length_filterMap_le _ _
    have fewer : ((links s organizationId).filter (fun link => link.1 ∉ [managerId])).length < (links s organizationId).length := by
      apply List.length_filter_lt_length_iff_exists.mpr
      exact ⟨(managerId,manager),above_link reports,by simp⟩
    simp only [Option.toList_some,List.length_singleton]
    omega

theorem walk_reportsTo (apart : managerId ≠ userId) {found : Bool} (done : walk s organizationId userId managerId = some found) :
    reportsTo s organizationId userId (s.accounts.length+1) [managerId] (above s organizationId managerId) = found := by
  have unseen : userId ∉ [managerId] := by simpa using Ne.symm apart
  unfold walk at done
  rw [reportsTo_search _ unseen,done]
  rfl

-- Accounts of one id, and of one organization all the way up.
structure Lines (s : Directory) : Prop where
  keys : (s.accounts.map Account.id).Nodup
  inside : Inside s

theorem account_same (keys : (s.accounts.map Account.id).Nodup) {one two : Account} (left : one ∈ s.accounts) (right : two ∈ s.accounts)
    (same : one.id = two.id) : one = two := List.inj_on_of_nodup_map keys left right same

theorem accountIn_own (keys : (s.accounts.map Account.id).Nodup) {user : Account} (there : user ∈ s.accounts) :
    accountIn s user.organizationId user.id = some user := by
  unfold accountIn
  cases found_ : s.accounts.find? (fun other => other.id = user.id && other.organizationId = user.organizationId) with
  | none =>
    have none := List.find?_eq_none.mp found_ user there
    simp at none
  | some other =>
    have both := List.find?_some found_
    simp only [Bool.and_eq_true,decide_eq_true_eq] at both
    rw [account_same keys (List.mem_of_find?_eq_some found_) there both.1]

theorem lead_reports {one two : String} (leads : Leads (fun id => (above s organizationId id).toList) one two) : Reports s one two := by
  obtain ⟨user,found_,line⟩ := Option.bind_eq_some_iff.mp (Option.mem_toList.mp leads)
  obtain ⟨there,named,_⟩ := accountIn_parts found_
  exact ⟨user,there,named,line⟩

theorem Lines.leads (lines : Lines s) {user : Account} (there : user ∈ s.accounts) {two : String} (reports : Reports s user.id two) :
    Leads (fun id => (above s user.organizationId id).toList) user.id two ∧
      ∃ boss ∈ s.accounts, boss.id = two ∧ boss.organizationId = user.organizationId := by
  obtain ⟨row,stored,same,line⟩ := reports
  cases account_same lines.keys stored there same
  refine ⟨Option.mem_toList.mpr ?_,lines.inside user there two line⟩
  unfold above
  rw [accountIn_own lines.keys there]
  exact line

theorem Lines.paths (lines : Lines s) {user : Account} (there : user ∈ s.accounts) :
    ReflTransGen (Leads (fun id => (above s user.organizationId id).toList)) user.id userId ↔ ReflTransGen (Reports s) user.id userId := by
  constructor
  · exact ReflTransGen.mono (fun _ _ => lead_reports) _ _
  · intro path
    have climbs : ∀ {one : String}, ReflTransGen (Reports s) one userId → ∀ boss ∈ s.accounts, boss.id = one →
        boss.organizationId = user.organizationId →
          ReflTransGen (Leads (fun id => (above s user.organizationId id).toList)) one userId := by
      intro one path
      induction path using ReflTransGen.head_induction_on with
      | refl => exact fun _ _ _ _ => .refl
      | @head one two edge rest ih =>
        intro boss stored named ours
        obtain ⟨lead,higher,stored',named',same⟩ := lines.leads stored (named ▸ edge)
        rw [ours,named] at lead
        exact .head lead (ih higher stored' named' (same.trans ours))
    exact climbs path user there rfl rfl

-- A manager who is there, in the organization, and can sign in.
def Manageable (s : Directory) (organizationId managerId : String) : Prop :=
  ∃ manager ∈ s.accounts, manager.id = managerId ∧ manager.organizationId = organizationId ∧ manager.deactivatedAt = none

theorem checkManager_exact (lines : Lines s) : checkManager s organizationId userId managerId = none ↔
    Manageable s organizationId managerId ∧ ¬ ReflTransGen (Reports s) managerId userId := by
  unfold checkManager
  by_cases own : managerId = userId
  · rw [if_pos own]
    constructor
    · intro none
      cases none
    · intro ⟨_,apart⟩
      exact absurd (own ▸ .refl) apart
  · rw [if_neg own]
    cases found_ : accountIn s organizationId managerId with
    | none =>
      constructor
      · intro none
        cases none
      · intro ⟨⟨manager,there,named,ours,_⟩,_⟩
        have stored := accountIn_own lines.keys there
        rw [ours,named,found_] at stored
        cases stored
    | some manager =>
      obtain ⟨there,named,ours⟩ := accountIn_parts found_
      have line : above s organizationId managerId = manager.reportingLineManager := by
        unfold above
        rw [found_]
        rfl
      by_cases active : manager.deactivatedAt = none
      · obtain ⟨found,done⟩ := walk_ends s organizationId userId managerId
        have told := walk_reportsTo own done
        rw [line] at told
        have unseen : userId ∉ [managerId] := by simpa using Ne.symm own
        have closed : Closed (fun id => (above s organizationId id).toList) [managerId] (above s organizationId managerId).toList := by
          intro one inside two edge
          rw [List.mem_singleton.mp inside] at edge
          exact .inr edge
        have exact_ := search_exact closed unseen done
        have reach : found = true ↔ ReflTransGen (Reports s) managerId userId := by
          rw [exact_,← named,← lines.paths there,ours,ReflTransGen.cases_head_iff]
          constructor
          · intro ⟨two,edge,rest⟩
            exact .inr ⟨two,named ▸ edge,rest⟩
          · intro path
            rcases path with same | ⟨two,edge,rest⟩
            · exact absurd (named.symm.trans same) own
            · exact ⟨two,named ▸ edge,rest⟩
        simp only [active,ne_eq,not_true_eq_false,if_false,told]
        rw [← reach]
        cases found with
        | true => simp
        | false =>
          simp only [Bool.false_eq_true,if_false,not_false_eq_true,and_true,true_iff]
          exact ⟨manager,there,named,ours,active⟩
      · simp only [active,ne_eq,not_false_eq_true,if_true]
        constructor
        · intro none
          cases none
        · intro ⟨⟨other,there',named',_,active'⟩,_⟩
          rw [account_same lines.keys there' there (named'.trans named.symm)] at active'
          exact absurd active' active

theorem createUser_parts {payload : UserCreate} {handed : List Credential} (accepted : createUser s caller payload = .ok (next,handed)) :
    next.accounts = s.accounts ++ [newAccount caller payload] ∧ (∀ user ∈ s.accounts, user.id ≠ payload.id) ∧
      ∀ manager ∈ payload.reportingLineManager, checkManager s caller.organizationId payload.id manager = none := by
  unfold createUser at accepted
  cases refused : createUserRefusal s caller payload with
  | some refusal => simp [refused] at accepted
  | none =>
    simp only [refused] at accepted
    cases accepted
    unfold createUserRefusal at refused
    split at refused
    · cases refused
    · split at refused
      · cases refused
      · split at refused
        · cases refused
        · split at refused
          · cases refused
          · rename_i fresh
            split at refused
            · cases refused
            · refine ⟨rfl,?_,?_⟩
              · intro user there same
                exact fresh (List.any_eq_true.mpr ⟨user,there,by simpa using same⟩)
              · intro manager sent
                rw [Option.mem_def.mp sent] at refused
                exact refused

theorem managedAccount_there {user : Account} (allowed : managedAccount s caller userId = .ok user) :
    user ∈ s.accounts ∧ user.id = userId ∧ user.organizationId = caller.organizationId := by
  unfold managedAccount at allowed
  split at allowed
  · split at allowed
    · cases allowed
    · rename_i row found_
      split at allowed
      · cases allowed
      · split at allowed
        · cases allowed
        · cases allowed
          exact accountIn_parts found_
  · cases allowed

theorem updateUser_parts {payload : UserUpdate} {handed : List Credential} (accepted : updateUser s caller userId payload = .ok (next,handed)) :
    ∃ user ∈ s.accounts, user.id = userId ∧ user.organizationId = caller.organizationId ∧ next = setAccount s user.id payload.apply ∧
      ∀ manager ∈ payload.reportingLineManager.join, checkManager s caller.organizationId user.id manager = none := by
  unfold updateUser at accepted
  cases allowed : managedAccount s caller userId with
  | error refusal => simp [allowed] at accepted
  | ok user =>
    obtain ⟨there,named,ours⟩ := managedAccount_there allowed
    simp only [allowed] at accepted
    split at accepted
    · cases accepted
    · split at accepted
      · cases accepted
      · split at accepted
        · cases accepted
        · rename_i passed
          cases accepted
          refine ⟨user,there,named,ours,rfl,?_⟩
          intro manager sent
          rw [Option.mem_def.mp sent] at passed
          exact passed

theorem Lines.created (lines : Lines s) {payload : UserCreate} (accounts : next.accounts = s.accounts ++ [newAccount caller payload])
    (fresh : ∀ user ∈ s.accounts, user.id ≠ payload.id)
    (checked : ∀ manager ∈ payload.reportingLineManager, checkManager s caller.organizationId payload.id manager = none) : Lines next := by
  refine ⟨?_,?_⟩
  · rw [accounts,List.map_append]
    apply List.Nodup.append lines.keys (List.nodup_singleton _)
    intro id old new
    obtain ⟨user,there,rfl⟩ := List.mem_map.mp old
    exact fresh user there (List.mem_singleton.mp new)
  · intro user there manager line
    rw [accounts] at there
    rcases List.mem_append.mp there with old | new
    · obtain ⟨boss,stored,named,ours⟩ := lines.inside user old manager line
      exact ⟨boss,accounts ▸ List.mem_append_left _ stored,named,ours⟩
    · cases List.mem_singleton.mp new
      obtain ⟨⟨boss,stored,named,ours,_⟩,_⟩ := (checkManager_exact lines).mp (checked manager line)
      exact ⟨boss,accounts ▸ List.mem_append_left _ stored,named,ours⟩

theorem mem_updated {payload : UserUpdate} {row : Account} (there : row ∈ (setAccount s userId payload.apply).accounts) :
    ∃ old ∈ s.accounts, row.id = old.id ∧ row.organizationId = old.organizationId ∧
      (row.reportingLineManager = old.reportingLineManager ∨ old.id = userId ∧
        row.reportingLineManager = payload.reportingLineManager.getD old.reportingLineManager) := by
  obtain ⟨old,stored,same⟩ := List.mem_map.mp there
  refine ⟨old,stored,?_⟩
  split at same
  · rename_i target
    cases same
    exact ⟨rfl,rfl,.inr ⟨target,rfl⟩⟩
  · cases same
    exact ⟨rfl,rfl,.inl rfl⟩

theorem Lines.updated (lines : Lines s) {payload : UserUpdate} {user : Account} (there : user ∈ s.accounts)
    (checked : ∀ manager ∈ payload.reportingLineManager.join, checkManager s user.organizationId user.id manager = none) :
    Lines (setAccount s user.id payload.apply) := by
  have kept : ∀ boss ∈ s.accounts, ∃ row ∈ (setAccount s user.id payload.apply).accounts, row.id = boss.id ∧ row.organizationId = boss.organizationId := by
    intro boss stored
    refine ⟨if boss.id = user.id then payload.apply boss else boss,List.mem_map.mpr ⟨boss,stored,rfl⟩,?_⟩
    split <;> exact ⟨rfl,rfl⟩
  have ids : (setAccount s user.id payload.apply).accounts.map Account.id = s.accounts.map Account.id := by
    simp only [setAccount,List.map_map]
    apply List.map_congr_left
    intro boss _
    simp only [Function.comp_apply]
    split <;> rfl
  refine ⟨ids ▸ lines.keys,?_⟩
  intro row listed manager line
  obtain ⟨old,stored,_,ours,reports⟩ := mem_updated listed
  have found_ : ∃ boss ∈ s.accounts, boss.id = manager ∧ boss.organizationId = old.organizationId := by
    rcases reports with same | ⟨target,sent⟩
    · exact lines.inside old stored manager (same ▸ line)
    · cases asked : payload.reportingLineManager with
      | none =>
        rw [asked,Option.getD_none] at sent
        exact lines.inside old stored manager (sent ▸ line)
      | some value =>
        rw [asked,Option.getD_some] at sent
        have join : manager ∈ payload.reportingLineManager.join := by
          rw [asked,Option.join_some,← sent]
          exact line
        obtain ⟨⟨boss,there',named,ours',_⟩,_⟩ := (checkManager_exact lines).mp (checked manager join)
        cases account_same lines.keys stored there target
        exact ⟨boss,there',named,ours'⟩
  obtain ⟨boss,there',named,ours'⟩ := found_
  obtain ⟨row',listed',id,organization⟩ := kept boss there'
  exact ⟨row',listed',id.trans named,organization.trans (ours'.trans ours.symm)⟩

-- One request: the links stay as they are, or one is added that closes no loop.
theorem acyclic_step (lines : Lines s) (acyclic : Acyclic (Reports s)) (op : String × Request) :
    Lines (step s op) ∧ Acyclic (Reports (step s op)) := by
  obtain ⟨callerId,request⟩ := op
  unfold step
  cases accepted : perform s callerId request with
  | error refusal => exact ⟨lines,acyclic⟩
  | ok answered =>
    obtain ⟨next,handed⟩ := answered
    simp only [perform] at accepted
    cases known : getCurrentUser s callerId with
    | error refusal => simp [known] at accepted
    | ok caller =>
      simp only [known] at accepted
      cases request with
      | createUser payload =>
        obtain ⟨accounts,fresh,checked⟩ := createUser_parts accepted
        refine ⟨lines.created accounts fresh checked,?_⟩
        cases sent : payload.reportingLineManager with
        | none =>
          apply acyclic.mono
          intro one two ⟨user,there,named,line⟩
          rw [accounts] at there
          rcases List.mem_append.mp there with old | new
          · exact ⟨user,old,named,line⟩
          · cases List.mem_singleton.mp new
            cases sent.symm.trans line
        | some manager =>
          obtain ⟨_,apart⟩ := (checkManager_exact lines).mp (checked manager sent)
          apply ((acyclic_withEdge acyclic).mpr apart).mono
          intro one two ⟨user,there,named,line⟩
          rw [accounts] at there
          rcases List.mem_append.mp there with old | new
          · exact .inl ⟨user,old,named,line⟩
          · cases List.mem_singleton.mp new
            cases sent.symm.trans line
            exact .inr ⟨named.symm,rfl⟩
      | updateUser userId payload =>
        obtain ⟨user,there,_,ours,rfl,checked⟩ := updateUser_parts accepted
        rw [← ours] at checked
        refine ⟨lines.updated there checked,?_⟩
        cases sent : payload.reportingLineManager.join with
        | none =>
          apply acyclic.mono
          intro one two ⟨row,listed,named,line⟩
          obtain ⟨old,stored,id,_,reports⟩ := mem_updated listed
          rcases reports with same | ⟨_,asked⟩
          · exact ⟨old,stored,id.symm.trans named,same.symm.trans line⟩
          · cases value : payload.reportingLineManager with
            | none =>
              rw [value,Option.getD_none] at asked
              exact ⟨old,stored,id.symm.trans named,asked.symm.trans line⟩
            | some value_ =>
              rw [value,Option.join_some] at sent
              rw [value,Option.getD_some,sent] at asked
              cases asked.symm.trans line
        | some manager =>
          obtain ⟨_,apart⟩ := (checkManager_exact lines).mp (checked manager sent)
          apply ((acyclic_withEdge acyclic).mpr apart).mono
          intro one two ⟨row,listed,named,line⟩
          obtain ⟨old,stored,id,_,reports⟩ := mem_updated listed
          rcases reports with same | ⟨target,asked⟩
          · exact .inl ⟨old,stored,id.symm.trans named,same.symm.trans line⟩
          · have value := Option.join_eq_some_iff.mp sent
            rw [value,Option.getD_some] at asked
            cases asked.symm.trans line
            exact .inr ⟨named.symm.trans (id.trans target),rfl⟩

-- From reporting lines without a loop no run of requests makes one, and in every
-- state on the way _check_manager refuses exactly a manager who is missing or
-- deactivated and a link that would close a loop. Its walk ends on every graph.
theorem reporting_lines_acyclic (start : Directory) (lines : Lines start) (acyclic : Acyclic (Reports start)) :
    (∀ s, Runs.Reached Steps start s → Acyclic (Reports s) ∧ ∀ organizationId userId managerId,
      checkManager s organizationId userId managerId = none ↔
        Manageable s organizationId managerId ∧ Acyclic (withEdge (Reports s) userId managerId)) ∧
    ∀ (s : Directory) (organizationId userId managerId : String), managerId ≠ userId → ∃ found, walk s organizationId userId managerId = some found ∧
      reportsTo s organizationId userId (s.accounts.length+1) [managerId] (above s organizationId managerId) = found := by
  constructor
  · intro s path
    have both : Lines s ∧ Acyclic (Reports s) := by
      apply path.invariant (fun s => Lines s ∧ Acyclic (Reports s)) ⟨lines,acyclic⟩
      intro s op next kept taken
      rw [← taken]
      exact acyclic_step kept.1 kept.2 op
    refine ⟨both.2,?_⟩
    intro organizationId userId managerId
    rw [checkManager_exact both.1,acyclic_withEdge both.2]
  · intro s organizationId userId managerId apart
    obtain ⟨found,done⟩ := walk_ends s organizationId userId managerId
    exact ⟨found,done,walk_reportsTo apart done⟩

def teacher (id : String) (roleType : InstitutionalRole) : Account :=
  ⟨id,"college",id,id ++ "@college.test","",roleType,none,none,.openAdHoc,none,false,none⟩

def staffRoom : Directory := ⟨[teacher "dean" .orgAdmin,teacher "head" .staff,teacher "tutor" .staff],[],[],[],[],1⟩

def reportTo (userId managerId : String) : String × Request := ("dean",.updateUser userId ⟨none,none,none,none,some (some managerId)⟩)

def lined : Directory := step (step staffRoom (reportTo "tutor" "head")) (reportTo "head" "dean")

theorem closing_line_refused : Acyclic (Reports lined) ∧ step lined (reportTo "dean" "tutor") = lined ∧
    (checkManager lined "college" "dean" "tutor" = none ↔
      Manageable lined "college" "tutor" ∧ Acyclic (withEdge (Reports lined) "dean" "tutor")) := by
  have inside : Inside staffRoom := by
    intro user there manager line
    simp only [staffRoom,List.mem_cons,List.not_mem_nil,or_false] at there
    rcases there with rfl | rfl | rfl <;> cases line
  have acyclic : Acyclic (Reports staffRoom) := by
    apply acyclic_of_none
    intro one two ⟨user,there,_,line⟩
    simp only [staffRoom,List.mem_cons,List.not_mem_nil,or_false] at there
    rcases there with rfl | rfl | rfl <;> cases line
  have run : Runs.Reached Steps staffRoom lined := (Runs.Reached.start.step rfl).step rfl
  obtain ⟨kept,exact_⟩ := (reporting_lines_acyclic staffRoom ⟨by decide,inside⟩ acyclic).1 lined run
  exact ⟨kept,by decide,exact_ _ _ _⟩

end ChronosLedger.ReportingLines
