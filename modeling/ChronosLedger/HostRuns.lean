import ChronosLedger.HostIdentity

namespace ChronosLedger.HostIdentity

variable {accounts before after : List User} {a : Assertion} {changes : Changes} {user other : User} {headers : Headers} {id : String}
  {s next : Host} {phase : Phase} {held : Option (String × String)}

-- No two accounts share an id or an address.
def Apart (accounts : List User) : Prop := accounts.Pairwise (fun one two => one.id ≠ two.id ∧ one.emailAddress ≠ two.emailAddress)

def Grows (before after : List User) : Prop := ∀ id, (get before id).isSome → (get after id).isSome

-- The address was another's when the write was refused.
def Another (accounts : List User) (a : Assertion) (held : Option (String × String)) : Prop :=
  ∃ other, held = some (a.address,other) ∧ other ≠ a.actorId ∧ (get accounts other).isSome

-- What a request may rely on where it stands.
def Phase.Told (accounts : List User) : Phase → Prop
  | .reading _ => True
  | .inserting _ => True
  | .rereading a held => (get accounts a.actorId).isSome ∨ Another accounts a held
  | .updating a changes => (get accounts a.actorId).isSome ∧ ∀ email ∈ changes.emailAddress, email = a.address
  | .finished (.accepted id) => (get accounts id).isSome
  | .finished (.refused _) => True
  | .finished (.taken a error held) => error = emailTaken ∧ Another accounts a held

structure Sound (s : Host) : Prop where
  apart : Apart s.accounts
  system : (get s.accounts systemActorId).isSome
  told : ∀ phase ∈ s.requests, phase.Told s.accounts

theorem Another.grows (another : Another before a held) (grows : Grows before after) : Another after a held := by
  obtain ⟨other,is,apart,there⟩ := another
  exact ⟨other,is,apart,grows other there⟩

theorem Phase.Told.grows (told : phase.Told before) (grows : Grows before after) : phase.Told after := by
  cases phase with
  | reading a => trivial
  | inserting a => trivial
  | rereading a held => exact told.imp (grows a.actorId) (fun another => another.grows grows)
  | updating a changes => exact ⟨grows a.actorId told.1,told.2⟩
  | finished answer =>
    cases answer with
    | accepted id => exact grows id told
    | refused error => trivial
    | taken a error held => exact ⟨told.1,told.2.grows grows⟩

theorem get_some (member : user ∈ accounts) : (get accounts user.id).isSome := by
  rw [Option.isSome_iff_ne_none]
  intro none_
  exact get_none.mp none_ user member rfl

theorem get_known (known : get accounts a.actorId = some user) : (get accounts a.actorId).isSome := by simp [known]

theorem grows_add (accounts : List User) (user : User) : Grows accounts (accounts ++ [user]) := by
  intro id there
  simp [get_add,there]

theorem grows_write (accounts : List User) (id : String) (changes : Changes) : Grows accounts (write accounts id changes) := by
  intro asked there
  rw [get_write]
  split
  · rename_i mine
    simpa [mine] using there
  · exact there

theorem Apart.adds (apart : Apart accounts) (absent : get accounts user.id = none) (free : holder accounts user.id user.emailAddress = none) :
    Apart (accounts ++ [user]) := by
  refine List.pairwise_append.mpr ⟨apart,List.pairwise_singleton ..,?_⟩
  intro one member two is
  obtain rfl := List.mem_singleton.mp is
  have another := get_none.mp absent one member
  exact ⟨another,holder_none.mp free one member another⟩

theorem inTheWay_free (free : inTheWay accounts id changes = none) (member : other ∈ accounts) (another : other.id ≠ id) :
    ∀ email ∈ changes.emailAddress, other.emailAddress ≠ email := by
  intro email sets
  simp only [inTheWay,Option.mem_def.mp sets,Option.bind_some] at free
  exact holder_none.mp free other member another

-- Of two accounts at most one is written, and to an address nobody has.
theorem Apart.writes (apart : Apart accounts) (free : inTheWay accounts id changes = none) : Apart (write accounts id changes) := by
  refine List.pairwise_map.mpr (apart.imp_of_mem ?_)
  intro one two there there' different
  have address : ∀ user other : User, other ∈ accounts → other.id ≠ id → user.emailAddress ≠ other.emailAddress →
      (changes.applied user).emailAddress ≠ other.emailAddress := by
    intro user other member another differ
    have unheld := inTheWay_free free member another
    cases sets : changes.emailAddress with
    | none => simpa [Changes.applied,sets] using differ
    | some email => simpa [Changes.applied,sets] using Ne.symm (unheld email sets)
  by_cases mine : one.id = id
  · have another : two.id ≠ id := fun same => different.1 (mine.trans same.symm)
    simp only [mine,another,if_true,if_false]
    exact ⟨different.1,address one two there' another different.2⟩
  · by_cases mine' : two.id = id
    · simp only [mine,mine',if_true,if_false]
      exact ⟨different.1,Ne.symm (address two one there mine (Ne.symm different.2))⟩
    · simpa only [mine,mine',if_false] using different

theorem Sound.goes (sound : Sound s) (apart : Apart after) (grows : Grows s.accounts after) (told : phase.Told after) (k : Nat) :
    Sound ⟨after,s.requests.set k phase⟩ := by
  refine ⟨apart,grows _ sound.system,?_⟩
  intro other member
  rcases List.mem_or_eq_of_mem_set member with old | rfl
  · exact (sound.told other old).grows grows
  · exact told

theorem known_told (found : get accounts a.actorId = some user) : (known user a).Told accounts := by
  unfold known
  dsimp only
  split
  · exact get_known found
  · exact ⟨get_known found,fun email sets => (assigned_address sets).1⟩

theorem held_another (found : holder accounts a.actorId (newUser a).emailAddress = some other) : Another accounts a (some (a.address,other.id)) := by
  obtain ⟨there,another,_⟩ := holder_parts found
  exact ⟨other.id,rfl,another,get_some there⟩

theorem same_grows (accounts : List User) : Grows accounts accounts := fun _ there => there

theorem Sound.inserts {k : Nat} (sound : Sound s) (taken : step s (.insert k) = some next) : Sound next := by
  simp only [step] at taken
  split at taken
  · rename_i a _
    split at taken
    · rename_i absent free
      cases taken
      refine sound.goes (sound.apart.adds absent free) (grows_add _ _) ?_ k
      show (get (s.accounts ++ [newUser a]) a.actorId).isSome
      simp [get_add,newUser]
    · rename_i some_
      cases taken
      refine sound.goes sound.apart (same_grows _) ?_ k
      cases known : get s.accounts a.actorId with
      | some user => exact .inl (get_known known)
      | none =>
        cases found : holder s.accounts a.actorId (newUser a).emailAddress with
        | none => exact absurd found (some_ known)
        | some other => exact .inr (held_another found)
  · cases taken

theorem Sound.rereads {k : Nat} (sound : Sound s) (taken : step s (.reread k) = some next) : Sound next := by
  simp only [step] at taken
  split at taken
  · rename_i a held at_
    cases taken
    refine sound.goes sound.apart (same_grows _) ?_ k
    have told := sound.told _ (List.mem_of_getElem? at_)
    cases known : get s.accounts a.actorId with
    | none =>
      rcases told with there | another
      · simp [known] at there
      · exact ⟨rfl,another⟩
    | some user => exact known_told known
  · cases taken

theorem Sound.updates {k : Nat} (sound : Sound s) (taken : step s (.update k) = some next) : Sound next := by
  simp only [step] at taken
  split at taken
  · rename_i a changes at_
    obtain ⟨there,address⟩ := sound.told _ (List.mem_of_getElem? at_)
    split at taken
    · rename_i other found
      cases taken
      refine sound.goes sound.apart (same_grows _) ?_ k
      obtain ⟨email,sets,member,another,_⟩ := inTheWay_parts found
      exact ⟨rfl,other.id,by simp [sets,address email sets],another,get_some member⟩
    · rename_i free
      cases taken
      refine sound.goes (sound.apart.writes free) (grows_write _ _ _) ?_ k
      exact grows_write _ _ _ _ there
  · cases taken

theorem Sound.grown (sound : Sound s) (apart : Apart after) (grows : Grows s.accounts after) : Sound {s with accounts := after} :=
  ⟨apart,grows _ sound.system,fun phase member => (sound.told phase member).grows grows⟩

theorem Sound.preserved {op : Operation} (sound : Sound s) (taken : step s op = some next) : Sound next := by
  cases op with
  | arrive headers =>
    cases taken
    refine ⟨sound.apart,sound.system,?_⟩
    intro phase member
    rcases List.mem_append.mp member with old | new
    · exact sound.told phase old
    · obtain rfl := List.mem_singleton.mp new
      cases asserted headers <;> trivial
  | read k =>
    simp only [step] at taken
    split at taken
    · rename_i a _
      cases taken
      refine sound.goes sound.apart (same_grows _) ?_ k
      cases found : get s.accounts a.actorId with
      | none => trivial
      | some user => exact known_told found
    · cases taken
  | insert k => exact sound.inserts taken
  | reread k => exact sound.rereads taken
  | update k => exact sound.updates taken
  | edit id changes =>
    simp only [step] at taken
    split at taken
    · cases taken
    · rename_i free
      cases taken
      exact sound.grown (sound.apart.writes free) (grows_write _ _ _)
  | create user =>
    simp only [step] at taken
    split at taken
    · rename_i absent free
      cases taken
      exact sound.grown (sound.apart.adds absent free) (grows_add _ _)
    · cases taken

theorem start_accounts : Host.start.accounts = [systemAccount] := rfl

theorem start_sound : Sound .start where
  apart := by simp only [start_accounts,Apart,List.pairwise_singleton]
  system := by simp [start_accounts,get,systemAccount]
  told := by simp [Host.start]

theorem reached_sound (path : Runs.Reached Steps .start s) : Sound s :=
  path.invariant Sound start_sound (fun _ _ _ sound taken => sound.preserved taken)

-- The statements a request still has before it.
def Phase.left : Phase → Nat
  | .reading _ => 4
  | .inserting _ => 3
  | .rereading _ _ => 2
  | .updating _ _ => 1
  | .finished _ => 0

theorem known_left (user : User) (a : Assertion) : (known user a).left < 2 := by
  unfold known
  dsimp only
  split
  · exact show 0 < 2 by decide
  · exact show 1 < 2 by decide

theorem step_left {k : Nat} (at_ : s.requests[k]? = some phase) (unanswered : phase.left ≠ 0) :
    ∃ op accounts after, step s op = some ⟨accounts,s.requests.set k after⟩ ∧ after.left < phase.left := by
  cases phase with
  | reading a =>
    cases found : get s.accounts a.actorId with
    | none =>
      refine ⟨.read k,s.accounts,.inserting a,?_,show 3 < 4 by decide⟩
      simp only [step,at_,found]
      rfl
    | some user =>
      refine ⟨.read k,s.accounts,known user a,?_,Nat.lt_trans (known_left user a) (show 2 < 4 by decide)⟩
      simp only [step,at_,found]
      rfl
  | inserting a =>
    have again (held : Option (String × String)) : (Phase.rereading a held).left < (Phase.inserting a).left := show 2 < 3 by decide
    cases absent : get s.accounts a.actorId with
    | some user =>
      refine ⟨.insert k,s.accounts,_,?_,again ((holder s.accounts a.actorId (newUser a).emailAddress).map (fun other => (a.address,other.id)))⟩
      simp only [step,at_,absent]
      rfl
    | none =>
      cases held : holder s.accounts a.actorId (newUser a).emailAddress with
      | none =>
        refine ⟨.insert k,s.accounts ++ [newUser a],.finished (.accepted a.actorId),?_,show 0 < 3 by decide⟩
        simp only [step,at_,absent,held]
        rfl
      | some other =>
        refine ⟨.insert k,s.accounts,_,?_,again (some (a.address,other.id))⟩
        simp only [step,at_,absent,held]
        rfl
  | rereading a held =>
    cases found : get s.accounts a.actorId with
    | none =>
      refine ⟨.reread k,s.accounts,.finished (.taken a emailTaken held),?_,show 0 < 2 by decide⟩
      simp only [step,at_,found]
      rfl
    | some user =>
      refine ⟨.reread k,s.accounts,known user a,?_,known_left user a⟩
      simp only [step,at_,found]
      rfl
  | updating a changes =>
    cases held : inTheWay s.accounts a.actorId changes with
    | none =>
      refine ⟨.update k,write s.accounts a.actorId changes,.finished (.accepted a.actorId),?_,show 0 < 1 by decide⟩
      simp only [step,at_,held]
      rfl
    | some other =>
      refine ⟨.update k,s.accounts,.finished (.taken a emailTaken (changes.emailAddress.map (fun email => (email,other.id)))),?_,show 0 < 1 by decide⟩
      simp only [step,at_,held]
      rfl
  | finished answer => exact absurd rfl unanswered

theorem goes_on {k : Nat} (at_ : s.requests[k]? = some phase) (unanswered : phase.left ≠ 0) :
    ∃ op next after, step s op = some next ∧ next.requests[k]? = some after ∧ after.left < phase.left := by
  obtain ⟨op,accounts,after,taken,fewer⟩ := step_left at_ unanswered
  have inside := (List.getElem?_eq_some_iff.mp at_).1
  exact ⟨op,_,after,taken,by simp [inside],fewer⟩

-- Any number of requests at once, among whatever else makes and changes accounts:
-- one account for an id and for an address, no answer without its account, and 409
-- only for an address that is another's. First requests for one id never refuse
-- each other, and none is stuck.
theorem host_accounts (path : Runs.Reached Steps .start s) :
    Apart s.accounts ∧ (∀ id, .finished (.accepted id) ∈ s.requests → (get s.accounts id).isSome) ∧
    (∀ a error held, .finished (.taken a error held) ∈ s.requests → error = emailTaken ∧ Another s.accounts a held) ∧
    ∀ (k : Nat) (phase : Phase), s.requests[k]? = some phase → phase.left ≠ 0 →
      ∃ op next, ∃ after : Phase, step s op = some next ∧ next.requests[k]? = some after ∧ after.left < phase.left := by
  have sound := reached_sound path
  refine ⟨sound.apart,?_,?_,fun _ _ => goes_on⟩
  · intro id accepted
    exact sound.told _ accepted
  · intro a error held taken
    exact sound.told _ taken

def Alone (_ : Host) (_ : Operation) : Prop := True

instance (s : Host) (op : Operation) : Decidable (Alone s op) := .isTrue trivial

def ann : Headers := ⟨some "ann",some "STAFF",none,some " Ann@ward.test",none⟩
def bob : Headers := ⟨some "bob",some "MEMBER",some "Bob",some "ann@WARD.test",none⟩
def bobAsserts : Assertion := ⟨"bob",.member,some "Bob",some "ann@ward.test",none⟩

-- Two first requests for one id are both let in; the third has the first's address.
theorem first_requests_meet : ∃ s, Runs.trace step Alone Host.start
      [.arrive ann,.arrive ann,.arrive bob,.read 0,.read 1,.read 2,.insert 0,.insert 1,.insert 2,.reread 1,.reread 2] = some s ∧
    s.requests = [.finished (.accepted "ann"),.finished (.accepted "ann"),.finished (.taken bobAsserts emailTaken (some ("ann@ward.test","ann")))] ∧
    (get s.accounts "ann").isSome ∧ Another s.accounts bobAsserts (some ("ann@ward.test","ann")) := by
  obtain ⟨s,traced,requests⟩ := Option.map_eq_some_iff.mp (show (Runs.trace step Alone Host.start
      [.arrive ann,.arrive ann,.arrive bob,.read 0,.read 1,.read 2,.insert 0,.insert 1,.insert 2,.reread 1,.reread 2]).map Host.requests =
    some [.finished (.accepted "ann"),.finished (.accepted "ann"),.finished (.taken bobAsserts emailTaken (some ("ann@ward.test","ann")))] by decide +kernel)
  have kept := host_accounts (Runs.trace_reached .start traced).unguard
  exact ⟨s,traced,requests,kept.2.1 "ann" (by simp [requests]),(kept.2.2.1 bobAsserts emailTaken _ (by simp [requests])).2⟩

def Host.asked (s : Host) (phase : Phase) : Host := {s with requests := s.requests ++ [phase]}

def Host.answered (s : Host) (served : List User × Answer) : Host := ⟨served.1,s.requests ++ [.finished served.2]⟩

theorem Host.asked_at (s : Host) (phase : Phase) : (s.asked phase).requests[s.requests.length]? = some phase := by simp [Host.asked]

theorem Host.asked_goes (s : Host) (phase after : Phase) : (s.asked phase).goes s.requests.length after = s.asked after := by simp [Host.asked,Host.goes]

theorem trace_first {op : Operation} {ops : List Operation} (taken : step s op = some next) : Runs.trace step Alone s (op :: ops) = Runs.trace step Alone next ops := by
  simp [Runs.trace,Alone,taken]

theorem asked_read (s : Host) (a : Assertion) :
    step (s.asked (.reading a)) (.read s.requests.length) =
      some (s.asked (match get s.accounts a.actorId with | none => .inserting a | some user => known user a)) := by
  simp only [step,Host.asked_at,Host.asked_goes]
  rfl

theorem asked_update (s : Host) (a : Assertion) (changes : Changes) :
    step (s.asked (.updating a changes)) (.update s.requests.length) = some (s.answered (save s.accounts a changes)) := by
  simp only [step,Host.asked_at,Host.asked_goes]
  cases held : inTheWay s.accounts a.actorId changes with
  | none => simp [save,held,Host.asked,Host.answered]
  | some other => simp [save,held,Host.asked,Host.answered]

theorem asked_insert (a : Assertion) (absent : get s.accounts a.actorId = none) :
    ∃ ops, Runs.trace step Alone (s.asked (.inserting a)) ops = some (s.answered (provision s.accounts a)) := by
  cases held : holder s.accounts a.actorId (newUser a).emailAddress with
  | none =>
    have inserted : step (s.asked (.inserting a)) (.insert s.requests.length) = some (s.answered (provision s.accounts a)) := by
      simp only [step,Host.asked_at,Host.asked_goes]
      simp [provision,held,absent,Host.asked,Host.answered]
    exact ⟨[.insert s.requests.length],trace_first inserted⟩
  | some other =>
    have refused : step (s.asked (.inserting a)) (.insert s.requests.length) = some (s.asked (.rereading a (some (a.address,other.id)))) := by
      simp only [step,Host.asked_at,Host.asked_goes]
      simp [held,absent,Host.asked]
      rfl
    have reread : step (s.asked (.rereading a (some (a.address,other.id)))) (.reread s.requests.length) = some (s.answered (provision s.accounts a)) := by
      simp only [step,Host.asked_at,Host.asked_goes]
      simp [provision,held,absent,Host.asked,Host.answered]
      rfl
    exact ⟨[.insert s.requests.length,.reread s.requests.length],(trace_first refused).trans (trace_first reread)⟩

-- Served with nobody else at work, a request ends as it does in one go.
theorem served_alone (ok : asserted headers = .ok a) (s : Host) :
    ∃ ops, Runs.trace step Alone s (.arrive headers :: ops) = some (s.answered (hostActor s.accounts headers)) := by
  have arrived : step s (.arrive headers) = some (s.asked (.reading a)) := by simp [step,ok,Host.asked]
  have read := asked_read s a
  cases found : get s.accounts a.actorId with
  | none =>
    simp only [found] at read
    obtain ⟨ops,inserted⟩ := asked_insert a found
    refine ⟨.read s.requests.length :: ops,?_⟩
    rw [trace_first arrived,trace_first read,inserted]
    simp only [hostActor,ok,found]
  | some user =>
    simp only [found,known] at read
    by_cases same : bringUpToDate user a = .none_
    · simp only [same,if_true] at read
      refine ⟨[.read s.requests.length],?_⟩
      rw [trace_first arrived,trace_first read]
      simp only [hostActor,ok,found,same,if_true]
      rfl
    · simp only [same,if_false] at read
      refine ⟨[.read s.requests.length,.update s.requests.length],?_⟩
      rw [trace_first arrived,trace_first read,trace_first (asked_update s a _)]
      simp only [hostActor,ok,found,same,if_false]
      rfl

theorem Apart.one (apart : Apart accounts) (there : user ∈ accounts) (there' : other ∈ accounts) (same : user.emailAddress = other.emailAddress) :
    user = other := by
  have forth : accounts.Pairwise (fun one two => one.emailAddress = two.emailAddress → one = two) :=
    apart.imp (fun different equal => absurd equal different.2)
  have back : accounts.Pairwise (flip fun one two => one.emailAddress = two.emailAddress → one = two) :=
    apart.imp (fun different equal => absurd equal.symm different.2)
  exact forth.forall_of_forall_of_flip (fun _ _ _ => rfl) back there there' same

-- An address that is another's is never let through: the account's own differs.
theorem Held.refused (held : Held accounts a other) (apart : Apart accounts) (ok : asserted headers = .ok a) :
    (hostActor accounts headers).2 ≠ .accepted a.actorId := by
  have normal := asserted_normal ok
  cases found : get accounts a.actorId with
  | none =>
    have holds : holder accounts a.actorId (newUser a).emailAddress ≠ none :=
      fun free => holder_none.mp free other held.there held.another held.address
    obtain ⟨first,is⟩ := Option.ne_none_iff_exists'.mp holds
    simp only [hostActor,ok,found,provision,is,ne_eq,reduceCtorEq,not_false_eq_true]
  | some user =>
    have asks : a.email ≠ none := held.needed.resolve_left (by simp [found])
    obtain ⟨email,asked⟩ := Option.ne_none_iff_exists'.mp asks
    have address : a.address = email := by simp [Assertion.address,asked,normal email asked]
    have differs : email ≠ user.emailAddress := by
      intro same
      have one := apart.one held.there (get_parts found).1 (held.address.trans (address.trans same))
      exact held.another (one ▸ (get_parts found).2)
    have assigned : (bringUpToDate user a).emailAddress = some email := by
      simp [bringUpToDate,differing,asked,Option.filter,differs,normal email asked]
    have changes : bringUpToDate user a ≠ .none_ := by
      intro same
      simp [same,Changes.none_] at assigned
    have holds : inTheWay accounts a.actorId (bringUpToDate user a) ≠ none :=
      fun free => inTheWay_free free held.there held.another email assigned (held.address.trans address)
    obtain ⟨first,is⟩ := Option.ne_none_iff_exists'.mp holds
    simp only [hostActor,ok,found,changes,if_false,save,is,ne_eq,reduceCtorEq,not_false_eq_true]

def annAccount : User := ⟨"ann","ann","ann@ward.test",.staff,none,false⟩

end ChronosLedger.HostIdentity
