import ChronosLedger.FederatedAccounts

namespace ChronosLedger.FederatedAccounts
open ActingFor

variable {folding : Folding} {s next : Directory} {note : VerifiedNote} {drawn : Drawn} {user : Account} {issuerId : Nat} {subject : String}
  {site after : Site} {op : Op}

-- The account behind a link for exactly this issuer and subject.
def LinkedTo (s : Directory) (note : VerifiedNote) (user : Account) : Prop :=
  (∃ link ∈ s.links, link.issuerId = note.issuer.id ∧ link.subject = note.subject ∧ link.userId = user.id) ∧ user ∈ s.accounts ∧
    user.deactivatedAt = none ∧ isAdmin user.roleType = false

-- One account and one link more, for a stranger with an address nobody has.
structure Provisioned (folding : Folding) (s : Directory) (note : VerifiedNote) (next : Directory) (user : Account) : Prop where
  stranger : ∀ link ∈ s.links, ¬ (link.issuerId = note.issuer.id ∧ link.subject = note.subject)
  rows : next = {s with
    accounts := s.accounts ++ [user]
    links := s.links ++ [⟨s.nextId,note.issuer.organizationId,note.issuer.id,note.subject,user.id⟩]
    nextId := s.nextId+1}
  organization : user.organizationId = note.issuer.organizationId
  role : (user.roleType,user.unitCode) = resolveRole s note.issuer.id note.groups
  least : user.roleType = .staff ∨ user.roleType = .member
  address : user.emailAddress = folding.normalizeEmail (note.email.getD "")
  untaken : ∀ other ∈ s.accounts, other.id ≠ user.id ∧ other.emailAddress ≠ user.emailAddress ∧ folding.lower other.emailAddress ≠ user.emailAddress

theorem resolveRole_least (s : Directory) (issuerId : Nat) (groups : List String) :
    (resolveRole s issuerId groups).1 = .staff ∨ (resolveRole s issuerId groups).1 = .member := by
  unfold resolveRole
  split
  · exact .inr rfl
  · simp only
    split
    · exact .inl rfl
    · split <;> exact .inr rfl

-- Only which groups a note asserts counts, not in what order or how often.
theorem resolveRole_same {groups others : List String} (same : ∀ group, group ∈ groups ↔ group ∈ others) :
    resolveRole s issuerId groups = resolveRole s issuerId others := by
  have contains : ∀ group, groups.contains group = others.contains group := by
    intro group
    rw [Bool.eq_iff_iff,List.contains_iff_mem,List.contains_iff_mem]
    exact same group
  have empty : groups = [] ↔ others = [] := by
    rw [List.eq_nil_iff_forall_not_mem,List.eq_nil_iff_forall_not_mem]
    exact forall_congr' (fun group => not_congr (same group))
  unfold resolveRole
  simp only [contains,empty]

theorem linked_parts {link : Link} (given : linked s note link = .ok user) :
    user ∈ s.accounts ∧ link.userId = user.id ∧ user.deactivatedAt = none ∧ isAdmin user.roleType = false := by
  unfold linked at given
  split at given
  · cases given
  · rename_i found there
    split at given
    · cases given
    · rename_i active
      split at given
      · cases given
      · rename_i ordinary
        cases given
        have named : user.id = link.userId := by simpa using List.find?_some there
        exact ⟨List.mem_of_find?_eq_some there,named.symm,not_not.mp active,by simpa using ordinary⟩

theorem findLink_parts {link : Link} (found : findLink s note = some link) :
    link ∈ s.links ∧ link.issuerId = note.issuer.id ∧ link.subject = note.subject := by
  have pair := List.find?_some found
  simp only [isPair,Bool.and_eq_true,decide_eq_true_eq] at pair
  exact ⟨List.mem_of_find?_eq_some found,pair⟩

theorem flush_parts (given : flush folding s note user = (next,.ok user')) : user' = user ∧
    (∀ other ∈ s.accounts, other.id ≠ user.id ∧ other.emailAddress ≠ user.emailAddress) ∧
    (∀ link ∈ s.links, ¬ (link.issuerId = note.issuer.id ∧ link.subject = note.subject)) ∧ next = {s with
      accounts := s.accounts ++ [user]
      links := s.links ++ [⟨s.nextId,note.issuer.organizationId,note.issuer.id,note.subject,user.id⟩]
      nextId := s.nextId+1} := by
  unfold flush at given
  split at given
  · cases given
  · rename_i first inserted
    split at given
    · cases given
    · rename_i second joined
      cases given
      unfold insertUser at inserted
      split at inserted
      · cases inserted
      · rename_i free
        cases inserted
        unfold insertLink at joined
        split at joined
        · cases joined
        · rename_i single
          cases joined
          refine ⟨rfl,?_,?_,rfl⟩
          · intro other there
            have apart := mt List.any_eq_true.mpr free
            constructor
            · intro same
              exact apart ⟨other,there,by simp [same]⟩
            · intro same
              exact apart ⟨other,there,by simp [same]⟩
          · intro link there pair
            apply single
            rw [Bool.or_eq_true,List.any_eq_true]
            exact .inl ⟨link,there,by simp [isPair,pair.1,pair.2]⟩

theorem checkEmail_parts {email : String} (free : checkEmail folding s note = .ok email) :
    email = folding.normalizeEmail (note.email.getD "") ∧ ∀ other ∈ s.accounts, folding.lower other.emailAddress ≠ email := by
  unfold checkEmail at free
  simp only at free
  split at free
  · cases free
  · split at free
    · cases free
    · rename_i untaken
      cases free
      refine ⟨rfl,?_⟩
      intro other there same
      exact untaken (List.any_eq_true.mpr ⟨other,there,by simp [same]⟩)

theorem accountFor_ok (given : accountFor folding s note drawn = (next,.ok user)) :
    next = s ∧ LinkedTo s note user ∨ Provisioned folding s note next user := by
  unfold accountFor at given
  split at given
  · rename_i link found
    obtain ⟨rfl,linked_⟩ := Prod.mk.inj given
    obtain ⟨there,same,active,ordinary⟩ := linked_parts linked_
    obtain ⟨listed,issuer,subject_⟩ := findLink_parts found
    exact .inl ⟨rfl,⟨link,listed,issuer,subject_,same⟩,there,active,ordinary⟩
  · split at given
    · cases (Prod.mk.inj given).2
    · rename_i email free
      obtain ⟨rfl,apart,stranger,rows⟩ := flush_parts given
      obtain ⟨address,untaken⟩ := checkEmail_parts free
      refine .inr ⟨stranger,rows,rfl,rfl,resolveRole_least _ _ _,address,?_⟩
      intro other there
      exact ⟨(apart other there).1,(apart other there).2,untaken other there⟩

-- What is committed where a call raises is what was there.
theorem issue_raises {first second : Drawn} {raised : Raised} (given : (issue folding s note first second).2 = .error raised) :
    (issue folding s note first second).1 = s := by
  unfold issue at given ⊢
  split
  · rename_i told
    simp [told] at given
  · rename_i told
    simp only [told] at given ⊢
    split
    · rename_i again
      simp [again] at given
    · rfl
  · rfl

theorem asOrgAdmin_ok {caller : Account} {outcome : Outcome} {answer : Directory × List Credential}
    (given : asOrgAdmin caller outcome = .ok answer) : outcome = .ok answer := by
  unfold asOrgAdmin at given
  split at given
  · cases given
  · exact given

theorem withIssuer_ok {caller : Account} {f : Issuer → Outcome} {answer : Directory × List Credential}
    (given : withIssuer s caller issuerId f = .ok answer) : ∃ row, row.id = issuerId ∧ f row = .ok answer := by
  have inner := asOrgAdmin_ok given
  split at inner
  · cases inner
  · rename_i row found
    have both := List.find?_some found
    simp only [Bool.and_eq_true,decide_eq_true_eq] at both
    exact ⟨row,both.1,inner⟩

-- What a request does to the links: nothing, or one more for a pair that had none,
-- or one less, or those of an issuer less.
theorem handle_links {caller : Account} {now : Int} {drawn : String} {route : Route} {handed : List Credential}
    (given : handle s caller now drawn route = .ok (next,handed)) : next.links = s.links ∨
      (∃ link, (∀ other ∈ s.links, ¬ (other.issuerId = link.issuerId ∧ other.subject = link.subject)) ∧ next.links = s.links ++ [link]) ∨
      (∃ issuerId, route = .deleteIssuer issuerId ∧ next.links = s.links.filter (fun link => link.issuerId ≠ issuerId)) ∨
      ∃ linkId, route = .deleteLink linkId ∧ next.links = s.links.filter (fun link => link.id ≠ linkId) := by
  cases route with
  | deleteIssuer issuerId =>
    obtain ⟨row,rfl,inner⟩ := withIssuer_ok given
    cases inner
    exact .inr (.inr (.inl ⟨_,rfl,rfl⟩))
  | deleteLink linkId =>
    have inner := asOrgAdmin_ok given
    split at inner
    · cases inner
      exact .inr (.inr (.inr ⟨_,rfl,rfl⟩))
    · cases inner
  | createLink payload =>
    obtain ⟨row,same,inner⟩ := withIssuer_ok given
    split at inner
    · cases inner
    · split at inner
      · cases inner
      · split at inner
        · cases inner
        · rename_i none
          cases inner
          refine .inr (.inl ⟨_,?_,rfl⟩)
          intro other there pair
          simpa [pair.1,pair.2] using List.find?_eq_none.mp none other there
  | createIssuer payload =>
    have inner := asOrgAdmin_ok given
    split at inner
    · cases inner
    · cases inner
      exact .inl rfl
  | updateIssuer issuerId payload =>
    obtain ⟨row,_,inner⟩ := withIssuer_ok given
    cases inner
    exact .inl rfl
  | addKey issuerId payload =>
    obtain ⟨row,_,inner⟩ := withIssuer_ok given
    repeat' split at inner
    all_goals cases inner
    exact .inl rfl
  | retireKey issuerId keyId notAfter =>
    obtain ⟨row,_,inner⟩ := withIssuer_ok given
    split at inner
    · cases inner
    · simp only at inner
      split at inner
      · cases inner
      · cases inner
        exact .inl rfl
  | deleteKey issuerId keyId =>
    obtain ⟨row,_,inner⟩ := withIssuer_ok given
    split at inner
    · cases inner
    · cases inner
      exact .inl rfl
  | addRoleMapEntry issuerId payload =>
    obtain ⟨row,_,inner⟩ := withIssuer_ok given
    split at inner
    · cases inner
    · cases inner
      exact .inl rfl
  | deleteRoleMapEntry issuerId entryId =>
    obtain ⟨row,_,inner⟩ := withIssuer_ok given
    split at inner
    · cases inner
      exact .inl rfl
    · cases inner
  | listKeys issuerId =>
    obtain ⟨row,_,inner⟩ := withIssuer_ok given
    cases inner
    exact .inl rfl
  | listRoleMap issuerId =>
    obtain ⟨row,_,inner⟩ := withIssuer_ok given
    cases inner
    exact .inl rfl
  | listIssuers =>
    cases asOrgAdmin_ok given
    exact .inl rfl
  | listLinks =>
    cases asOrgAdmin_ok given
    exact .inl rfl
  | getMe =>
    cases given
    exact .inl rfl
  | listAvailableStaff =>
    cases given
    exact .inl rfl
  | changePassword currentPassword newPassword =>
    simp only [handle,changePassword] at given
    repeat' split at given
    all_goals cases given
    exact .inl rfl
  | createApiKey payload =>
    simp only [handle,createApiKey] at given
    repeat' split at given
    all_goals cases given
    exact .inl rfl
  | listApiKeys =>
    simp only [handle,listApiKeys] at given
    split at given
    · cases given
    · cases given
      exact .inl rfl
  | revokeApiKey keyId =>
    simp only [handle,revokeApiKey] at given
    repeat' split at given
    all_goals cases given
    exact .inl rfl
  | listUsers =>
    simp only [handle,listUsers] at given
    split at given
    · cases given
      exact .inl rfl
    · cases given
  | createUser payload =>
    simp only [handle,createUser] at given
    split at given
    · cases given
    · cases given
      exact .inl rfl
  | getUser userId =>
    simp only [handle,getUser] at given
    repeat' split at given
    all_goals cases given
    exact .inl rfl
  | updateUser userId payload =>
    simp only [handle,updateUser] at given
    repeat' split at given
    all_goals cases given
    exact .inl rfl
  | resetUserPassword userId =>
    simp only [handle,resetUserPassword] at given
    split at given
    · cases given
    · cases given
      exact .inl rfl
  | deactivateUser userId =>
    simp only [handle,deactivateUser] at given
    repeat' split at given
    all_goals cases given
    all_goals exact .inl rfl
  | reactivateUser userId =>
    simp only [handle,reactivateUser] at given
    split at given
    · cases given
    · cases given
      exact .inl rfl
  | updateUserStatus userId status =>
    simp only [handle,updateUserStatus] at given
    repeat' split at given
    all_goals cases given
    exact .inl rfl

-- One account for a pair, as its unique constraint has it.
def Single (issuerId : Nat) (subject : String) (links : List Link) : Prop :=
  ∀ one ∈ links, ∀ two ∈ links, isPair issuerId subject one = true → isPair issuerId subject two = true → one.userId = two.userId

-- No administrator takes the pair's link away, or the issuer with it.
def Keeps (issuerId : Nat) (subject : String) (site : Site) : Op → Prop
  | .request _ _ _ (.deleteLink linkId) => ∀ link ∈ site.directory.links, isPair issuerId subject link = true → link.id ≠ linkId
  | .request _ _ _ (.deleteIssuer other) => other ≠ issuerId
  | _ => True

structure Answered (issuerId : Nat) (subject : String) (site : Site) : Prop where
  single : Single issuerId subject site.directory.links
  answers : ∀ answer ∈ site.answers, answer.issuerId = issuerId → answer.subject = subject →
    ∃ link ∈ site.directory.links, isPair issuerId subject link = true ∧ link.userId = answer.userId

theorem Answered.fewer (answered : Answered issuerId subject site) {directory : Directory} {kept : Link → Bool}
    (links : directory.links = site.directory.links.filter kept) (keeps : ∀ link ∈ site.directory.links, isPair issuerId subject link = true →
      kept link = true) : Answered issuerId subject {site with directory := directory} := by
  refine ⟨?_,?_⟩
  · intro one left two right
    simp only [links,List.mem_filter] at left right
    exact answered.single one left.1 two right.1
  · intro answer given issuer subject_
    obtain ⟨link,there,pair,same⟩ := answered.answers answer given issuer subject_
    exact ⟨link,by simp only [links,List.mem_filter]; exact ⟨there,keeps link there pair⟩,pair,same⟩

theorem Single.snoc {links : List Link} (single : Single issuerId subject links) {link : Link}
    (none : ∀ other ∈ links, ¬ (other.issuerId = link.issuerId ∧ other.subject = link.subject)) : Single issuerId subject (links ++ [link]) := by
  have alone : isPair issuerId subject link = true → ∀ other ∈ links, isPair issuerId subject other ≠ true := by
    intro pair other there pair'
    simp only [isPair,Bool.and_eq_true,decide_eq_true_eq] at pair pair'
    exact none other there ⟨pair'.1.trans pair.1.symm,pair'.2.trans pair.2.symm⟩
  intro one left two right pair pair'
  rcases List.mem_append.mp left with old | new <;> rcases List.mem_append.mp right with old' | new'
  · exact single one old two old' pair pair'
  · cases List.mem_singleton.mp new'
    exact absurd pair (alone pair' one old)
  · cases List.mem_singleton.mp new
    exact absurd pair' (alone pair two old')
  · cases List.mem_singleton.mp new
    cases List.mem_singleton.mp new'
    rfl

theorem Answered.requested (answered : Answered issuerId subject site) {caller : Account} {userId : String} {now : Int} {drawn : String} {route : Route}
    {directory : Directory} {handed : List Credential} (keeps : Keeps issuerId subject site (.request userId now drawn route))
    (given : handle site.directory caller now drawn route = .ok (directory,handed)) :
    Answered issuerId subject {site with directory := directory} := by
  rcases handle_links given with same | ⟨link,none,more⟩ | ⟨other,rfl,fewer⟩ | ⟨linkId,rfl,fewer⟩
  · exact ⟨by simpa only [same] using answered.single,by simpa only [same] using answered.answers⟩
  · refine ⟨by simpa only [more] using answered.single.snoc none,?_⟩
    intro answer told issuer subject_
    obtain ⟨held,there,pair,same⟩ := answered.answers answer told issuer subject_
    exact ⟨held,by simp only [more]; exact List.mem_append_left _ there,pair,same⟩
  · apply answered.fewer fewer
    intro link _ pair
    simp only [isPair,Bool.and_eq_true,decide_eq_true_eq] at pair
    simpa [pair.1] using Ne.symm keeps
  · apply answered.fewer fewer
    intro link there pair
    simpa using keeps link there pair

-- An answer given through a link that is there.
theorem Answered.answer (answered_ : Answered issuerId subject site) {position : Nat} {directory : Directory} {userId raw : String}
    (single : Single issuerId subject directory.links) (kept : ∀ link ∈ site.directory.links, link ∈ directory.links)
    (through : ∃ link ∈ directory.links, link.issuerId = note.issuer.id ∧ link.subject = note.subject ∧ link.userId = userId) :
    Answered issuerId subject (answered site position directory note userId raw) := by
  refine ⟨single,?_⟩
  intro answer given issuer subject_
  rcases List.mem_append.mp given with old | new
  · obtain ⟨link,there,pair,same⟩ := answered_.answers answer old issuer subject_
    exact ⟨link,kept link there,pair,same⟩
  · cases List.mem_singleton.mp new
    obtain ⟨link,there,one,two,same⟩ := through
    refine ⟨link,there,?_,same⟩
    simp only [isPair,Bool.and_eq_true,decide_eq_true_eq]
    exact ⟨one.trans issuer,two.trans subject_⟩

theorem Answered.proceeds (answered : Answered issuerId subject site) {position : Nat} {attempt : Attempt} :
    Answered issuerId subject (proceed folding site position attempt drawn) := by
  unfold proceed
  split
  · split
    · exact ⟨answered.single,answered.answers⟩
    · rename_i link found
      split
      · exact ⟨answered.single,answered.answers⟩
      · rename_i user given
        obtain ⟨there,one,two⟩ := findLink_parts found
        exact answered.answer answered.single (fun _ there => there) ⟨link,there,one,two,(linked_parts given).2.1⟩
  · split
    · exact ⟨answered.single,answered.answers⟩
    · exact ⟨answered.single,answered.answers⟩
  · split
    · rename_i next user' given
      obtain ⟨rfl,_,none,rows⟩ := flush_parts given
      have links : next.links = site.directory.links ++ [⟨site.directory.nextId,attempt.note.issuer.organizationId,attempt.note.issuer.id,
          attempt.note.subject,user'.id⟩] := by rw [rows]
      apply answered.answer
      · rw [links]
        exact answered.single.snoc none
      · intro link there
        rw [links]
        exact List.mem_append_left _ there
      · exact ⟨_,by rw [links]; exact List.mem_append_right _ (List.mem_singleton_self _),rfl,rfl,rfl⟩
    · split
      · exact ⟨answered.single,answered.answers⟩
      · exact ⟨answered.single,answered.answers⟩

theorem Answered.steps (answered : Answered issuerId subject site) (keeps : Keeps issuerId subject site op)
    (taken : Steps folding site op after) : Answered issuerId subject after := by
  change step folding site op = some after at taken
  cases op with
  | request userId now drawn route =>
    simp only [step] at taken
    split at taken
    · cases taken
      exact answered
    · split at taken
      · cases taken
        exact answered
      · rename_i directory handed given
        cases taken
        exact answered.requested keeps given
  | begin note =>
    cases taken
    exact ⟨answered.single,answered.answers⟩
  | proceed position drawn =>
    obtain ⟨attempt,_,rfl⟩ := Option.map_eq_some_iff.mp taken
    exact answered.proceeds

theorem issue_ok {first second : Drawn} {raw : String} (given : (issue folding s note first second).2 = .ok (user,raw)) :
    ∃ drawn next, accountFor folding s note drawn = (next,.ok user) ∧ (issue folding s note first second).1 = mintRefreshToken next user.id raw := by
  unfold issue at given ⊢
  split
  · rename_i next user' told
    simp only [told] at given
    cases given
    exact ⟨first,next,told,rfl⟩
  · rename_i told
    simp only [told] at given ⊢
    split
    · rename_i next user' again
      simp only [again] at given
      cases given
      exact ⟨second,next,again,rfl⟩
    · rename_i again
      simp [again] at given
  · rename_i told
    simp [told] at given

-- An attempt that nothing comes between is account_for, statement by statement.
theorem attempt_alone {answers : List Answer} (given : accountFor folding s note drawn = (next,.ok user)) :
    ∃ ops, Runs.trace (step folding) (fun _ _ => True) ⟨s,[],answers⟩ (.begin note :: ops) =
      some ⟨mintRefreshToken next user.id drawn.refreshToken,[],answers ++ [⟨note.issuer.id,note.subject,user.id⟩]⟩ := by
  unfold accountFor at given
  split at given
  · rename_i link found
    obtain ⟨rfl,linked_⟩ := Prod.mk.inj given
    exact ⟨[.proceed 0 drawn],by simp [Runs.trace,step,proceed,found,linked_,answered]⟩
  · rename_i none
    split at given
    · cases (Prod.mk.inj given).2
    · rename_i email free
      refine ⟨[.proceed 0 drawn,.proceed 0 drawn,.proceed 0 drawn],?_⟩
      simp [Runs.trace,step,proceed,none,free,given,moved,answered]

-- Nobody is handed an account for its address. A call gives the account the pair is
-- linked to or makes one, or it raises and leaves everything as it was; and while
-- nobody takes the pair's link away, every call that succeeds gives one account.
theorem federated_accounts (folding : Folding) :
    (∀ s note drawn next user, accountFor folding s note drawn = (next,.ok user) →
      next = s ∧ LinkedTo s note user ∨ Provisioned folding s note next user) ∧
    (∀ s note first second, (∀ raised, (issue folding s note first second).2 = .error raised → (issue folding s note first second).1 = s) ∧
      ∀ user raw, (issue folding s note first second).2 = .ok (user,raw) → ∃ drawn next, accountFor folding s note drawn = (next,.ok user) ∧
        (issue folding s note first second).1 = mintRefreshToken next user.id raw) ∧
    (∀ s issuerId groups others, (∀ group, group ∈ groups ↔ group ∈ others) → resolveRole s issuerId groups = resolveRole s issuerId others) ∧
    ∀ issuerId subject (start : Directory) attempts, Single issuerId subject start.links → ∀ site,
      Runs.Reached (Runs.Guarded (Steps folding) (Keeps issuerId subject)) ⟨start,attempts,[]⟩ site → ∀ one ∈ site.answers, ∀ two ∈ site.answers,
        one.issuerId = issuerId ∧ one.subject = subject → two.issuerId = issuerId ∧ two.subject = subject → one.userId = two.userId := by
  refine ⟨fun s note drawn next user => accountFor_ok,fun s note first second => ⟨fun raised => issue_raises,fun user raw => issue_ok⟩,
    fun s issuerId groups others => resolveRole_same,?_⟩
  intro issuerId subject start attempts single site path one given two given' pair pair'
  have answered : Answered issuerId subject site := by
    apply path.invariant (Answered issuerId subject)
    · exact ⟨single,fun answer none => absurd none List.not_mem_nil⟩
    · intro site op after answered taken
      exact answered.steps taken.1 taken.2
  obtain ⟨link,there,isOne,same⟩ := answered.answers one given pair.1 pair.2
  obtain ⟨link',there',isTwo,same'⟩ := answered.answers two given' pair'.1 pair'.2
  rw [← same,← same']
  exact answered.single link there link' there' isOne isTwo

instance (issuerId : Nat) (subject : String) (site : Site) (op : Op) : Decidable (Keeps issuerId subject site op) := by
  unfold Keeps
  split <;> infer_instance

def plain : Folding := ⟨id,id⟩

def member (id : String) (role : InstitutionalRole) : Account :=
  ⟨id,"default",id,id ++ "@college.test","Unused-Password-1",role,none,none,.openAdHoc,none,false,none⟩

def campus : Issuer := ⟨1,"default","https://campus.test","Campus","chronos",true,[],[⟨2,"teachers",.staff,some "MATH"⟩]⟩

-- An administrator, somebody already linked and somebody who is not.
def college : Directory :=
  ⟨[member "ADM001" .orgAdmin,member "FAC001" .staff,member "FAC002" .staff],[],[],[campus],[⟨3,"default",1,"sub-1","FAC001"⟩],4⟩

def noteFrom (subject email : String) : VerifiedNote := ⟨campus,subject,some email,none,["teachers"]⟩

def drawn0 : Drawn := ⟨"FED-01","secret","token"⟩

-- A stranger's first note makes an account, and the second, with another address,
-- is answered with it.
theorem stranger_known_again : ∃ site, Runs.trace (step plain) (Keeps 1 "sub-2") ⟨college,[],[]⟩
    [.begin (noteFrom "sub-2" "eve@college.test"),.proceed 0 drawn0,.proceed 0 drawn0,.proceed 0 drawn0,
      .request "ADM001" 0 "" (.deleteLink 3),.begin (noteFrom "sub-2" "FAC002@college.test"),.proceed 0 drawn0] = some site ∧
    site.answers.length = 2 ∧ ∀ one ∈ site.answers, ∀ two ∈ site.answers, one.issuerId = 1 ∧ one.subject = "sub-2" →
      two.issuerId = 1 ∧ two.subject = "sub-2" → one.userId = two.userId := by
  have done : ∃ site, Runs.trace (step plain) (Keeps 1 "sub-2") ⟨college,[],[]⟩
      [.begin (noteFrom "sub-2" "eve@college.test"),.proceed 0 drawn0,.proceed 0 drawn0,.proceed 0 drawn0,
        .request "ADM001" 0 "" (.deleteLink 3),.begin (noteFrom "sub-2" "FAC002@college.test"),.proceed 0 drawn0] = some site ∧
      site.answers.length = 2 := ⟨_,rfl,by decide⟩
  obtain ⟨site,run,count⟩ := done
  have single : Single 1 "sub-2" college.links := by unfold Single; decide
  exact ⟨site,run,count,(federated_accounts plain).2.2.2 1 "sub-2" college [] single site (Runs.trace_reached .start run)⟩

-- An administrator moves the link to somebody else, on purpose.
theorem link_moved : ¬ ∀ (start : Directory) issuerId subject, Single issuerId subject start.links → ∀ site,
    Runs.Reached (Steps plain) ⟨start,[],[]⟩ site → ∀ one ∈ site.answers, ∀ two ∈ site.answers,
      one.issuerId = issuerId ∧ one.subject = subject → two.issuerId = issuerId ∧ two.subject = subject → one.userId = two.userId := by
  intro all
  have done : ∃ site, Runs.trace (step plain) (fun _ _ => True) ⟨college,[],[]⟩
      [.begin (noteFrom "sub-1" "a@college.test"),.proceed 0 drawn0,.request "ADM001" 0 "" (.deleteLink 3),
        .request "ADM001" 0 "" (.createLink ⟨1,"sub-1","FAC002"⟩),.begin (noteFrom "sub-1" "a@college.test"),.proceed 0 drawn0] = some site ∧
      ∃ one ∈ site.answers, ∃ two ∈ site.answers, one.issuerId = 1 ∧ one.subject = "sub-1" ∧ two.issuerId = 1 ∧ two.subject = "sub-1" ∧
        one.userId ≠ two.userId := ⟨_,rfl,by decide⟩
  obtain ⟨site,run,one,given,two,given',issuer,subject_,issuer',subject',other⟩ := done
  have single : Single 1 "sub-1" college.links := by unfold Single; decide
  exact other (all college 1 "sub-1" single site (Runs.trace_reached .start run).unguard one given two given' ⟨issuer,subject_⟩ ⟨issuer',subject'⟩)

end ChronosLedger.FederatedAccounts
