import ChronosLedger.GuestVisits

namespace ChronosLedger.GuestVisits

abbrev Text := List Char

def visitCodeAlphabet : Text := "23456789ABCDEFGHJKMNPQRSTUVWXYZ".toList
def visitCodeLength : Nat := 16

-- The characters of a code, as they were drawn.
structure VisitCode where
  raw : Text
  long : raw.length = visitCodeLength
  drawn : ∀ c ∈ raw, c ∈ visitCodeAlphabet

-- As the visitor is shown it, in groups of four.
def VisitCode.shown (code : VisitCode) : Text := ['-'].intercalate ([0,4,8,12].map (fun i => (code.raw.drop i).take 4))

def cleaned (code : Text) : Text := (code.filter Char.isAlphanum).map Char.toUpper

-- What somebody may type for a code: its characters in either case, with anything
-- else between them.
inductive Typed : Text → Text → Prop where
  | ended {between : Text} (plain : ∀ c ∈ between, c.isAlphanum = false) : Typed [] between
  | char {raw rest between : Text} {c : Char} (plain : ∀ c ∈ between, c.isAlphanum = false) (counts : c.isAlphanum = true) (more : Typed raw rest) :
      Typed (c.toUpper :: raw) (between ++ c :: rest)

structure GuestCheckInRequest where
  guestName : String
  contactPhone : String
  originatingBody : String
  targetStaffId : String
  visitationIntent : String
  deriving DecidableEq, Repr

-- The columns of a check-in that deciding it does not touch.
structure Card where
  id : Nat
  contactPhone : String
  originatingBody : String
  visitationIntent : String
  timestampMarked : Int
  visitCodeHash : Option Text
  visitCodeExpiresAt : Option Int
  deriving DecidableEq, Repr

structure GuestVisitStatus where
  handshakeStatus : LogVerificationState
  timestampMarked : Int
  visitExpiresAt : Option Int
  deriving DecidableEq, Repr

-- `issued` is no column: the codes that were shown, and for which check-in.
structure Lobby where
  desk : State
  cards : List Card
  nextId : Nat
  issued : List (Nat × VisitCode)

inductive Event where
  | desk (op : Op)
  | checkIn (payload : GuestCheckInRequest) (code : VisitCode)
  | purge

-- sha256 is the hex digest of a code's characters.
section
variable (sha256 : Text → Text) (settings : Settings) (ttlMinutes retentionDays : Nat)

def hashVisitCode (code : Text) : Option Text := if (cleaned code).length = visitCodeLength then some (sha256 (cleaned code)) else none

def receives (user : User) : Bool := !user.deactivated && user.roleType ≠ .member

def expired (card : Card) (now : Int) : Bool := card.visitCodeExpiresAt.any (fun expires => expires ≤ now)

def cardFor (s : Lobby) (payload : GuestCheckInRequest) (hash : Option Text) : Card where
  id := s.nextId
  contactPhone := payload.contactPhone
  originatingBody := payload.originatingBody
  visitationIntent := payload.visitationIntent
  timestampMarked := s.desk.clock
  visitCodeHash := hash
  visitCodeExpiresAt := if 0 < ttlMinutes then some (s.desk.clock+minutesLong ttlMinutes) else none

-- A second row with one hash is refused by the column's index, and another code is
-- never tried.
def processGuestEntry (s : Lobby) (payload : GuestCheckInRequest) (code : VisitCode) : Lobby :=
  let hash := hashVisitCode sha256 code.shown
  match s.desk.users.find? (fun user => user.id = payload.targetStaffId) with
  | none => s
  | some staff =>
    if !receives staff || s.cards.any (fun card => card.visitCodeHash.isSome && card.visitCodeHash = hash) then s
    else {
      desk := {s.desk with rows := s.desk.rows ++ [⟨s.nextId,payload.guestName,payload.targetStaffId,.pendingVerification,none,none,none⟩]}
      cards := s.cards ++ [cardFor ttlMinutes s payload hash]
      nextId := s.nextId+1
      issued := (s.nextId,code) :: s.issued}

def isOld (now : Int) (card : Card) : Bool := card.timestampMarked < now-retentionDays*86400000000

def purgeOldGuestCheckIns (s : Lobby) : Lobby :=
  if retentionDays = 0 then s
  else
    let cards := s.cards.filter (fun card => !isOld retentionDays s.desk.clock card)
    {s with cards := cards,desk := {s.desk with rows := s.desk.rows.filter (fun row => cards.any (fun card => card.id = row.id))}}

def getVisitStatus (s : Lobby) (code : Text) : Except GuestError GuestVisitStatus :=
  match hashVisitCode sha256 code with
  | none => .error .notFound
  | some digest =>
    match s.cards.find? (fun card => card.visitCodeHash = some digest) with
    | none => .error .notFound
    | some card =>
      if expired card s.desk.clock then .error .notFound
      else
        match s.desk.rows.find? (fun row => row.id = card.id) with
        | none => .error .notFound
        | some row => .ok ⟨row.handshakeStatus,card.timestampMarked,row.visitExpiresAt⟩

def happen (s : Lobby) : Event → Option Lobby
  | .desk op => (step settings s.desk op).map (fun desk => {s with desk := desk})
  | .checkIn payload code => some (processGuestEntry sha256 ttlMinutes s payload code)
  | .purge => some (purgeOldGuestCheckIns retentionDays s)

abbrev Happens : Lobby → Event → Lobby → Prop := Runs.Acts (happen sha256 settings ttlMinutes retentionDays)

end

-- The check-ins there were before there were codes.
structure Codeless (s : Lobby) : Prop where
  rows : s.desk.rows.map Visit.id = s.cards.map Card.id
  apart : (s.cards.map Card.id).Nodup
  fresh : ∀ card ∈ s.cards, card.id < s.nextId
  none_ : ∀ card ∈ s.cards, card.visitCodeHash = none
  unissued : s.issued = []

section
variable {sha256 : Text → Text} {settings : Settings} {ttlMinutes retentionDays : Nat} {s next : Lobby} {card other : Card} {code : VisitCode}
  {typed raw one two : Text} {status : GuestVisitStatus}

theorem cleaned_append (one two : Text) : cleaned (one ++ two) = cleaned one ++ cleaned two := by simp [cleaned]

theorem cleaned_plain (plain : ∀ c ∈ one, c.isAlphanum = false) : cleaned one = [] := by
  simp only [cleaned,List.map_eq_nil_iff,List.filter_eq_nil_iff]
  intro c member
  simp [plain c member]

theorem Typed.cleaned (typed : Typed raw one) : cleaned one = raw := by
  induction typed with
  | ended plain => exact cleaned_plain plain
  | char plain counts more ih =>
    rename_i raw rest between c
    have first : GuestVisits.cleaned (c :: rest) = c.toUpper :: GuestVisits.cleaned rest := by simp [GuestVisits.cleaned,counts]
    rw [cleaned_append,cleaned_plain plain,List.nil_append,first,ih]

theorem alphabet_upper : ∀ c ∈ visitCodeAlphabet, c.isAlphanum = true ∧ c.toUpper = c := by
  intro c member
  have all : visitCodeAlphabet.all (fun c => c.isAlphanum && c.toUpper == c) = true := by decide +kernel
  simpa using List.all_eq_true.mp all c member

theorem cleaned_drawn (drawn : ∀ c ∈ one, c ∈ visitCodeAlphabet) : cleaned one = one := by
  have all : one.filter Char.isAlphanum = one := List.filter_eq_self.mpr (fun c member => (alphabet_upper c (drawn c member)).1)
  unfold cleaned
  rw [all]
  exact (List.map_congr_left (fun c member => (alphabet_upper c (drawn c member)).2)).trans (List.map_id _)

-- Read back, a code is the characters it was made of.
theorem cleaned_shown (code : VisitCode) : cleaned code.shown = code.raw := by
  have piece (i : Nat) : cleaned ((code.raw.drop i).take 4) = (code.raw.drop i).take 4 :=
    cleaned_drawn (fun c member => code.drawn c (List.mem_of_mem_drop (List.mem_of_mem_take member)))
  have dash : cleaned ['-'] = [] := by decide
  have whole : code.raw = code.raw.take 4 ++ ((code.raw.drop 4).take 4 ++ ((code.raw.drop 8).take 4 ++ (code.raw.drop 12).take 4)) := by
    have last : (code.raw.drop 12).take 4 = code.raw.drop 12 := by
      apply List.take_of_length_le
      simp [code.long,visitCodeLength]
    rw [last]
    have third : (code.raw.drop 8).take 4 ++ code.raw.drop 12 = code.raw.drop 8 := by
      have split := List.take_append_drop 4 (code.raw.drop 8)
      rwa [List.drop_drop] at split
    have second : (code.raw.drop 4).take 4 ++ code.raw.drop 8 = code.raw.drop 4 := by
      have split := List.take_append_drop 4 (code.raw.drop 4)
      rwa [List.drop_drop] at split
    rw [third,second,List.take_append_drop]
  have parts : code.shown = (code.raw.drop 0).take 4 ++ (['-'] ++ ((code.raw.drop 4).take 4 ++ (['-'] ++ ((code.raw.drop 8).take 4 ++
      (['-'] ++ (code.raw.drop 12).take 4))))) := by simp [VisitCode.shown]
  rw [parts]
  simp only [cleaned_append,piece,dash,List.nil_append]
  exact whole.symm

theorem hash_shown (sha256 : Text → Text) (code : VisitCode) : hashVisitCode sha256 code.shown = some (sha256 code.raw) := by
  simp [hashVisitCode,cleaned_shown,code.long]

theorem hash_typed (is : Typed code.raw typed) : hashVisitCode sha256 typed = some (sha256 code.raw) := by
  simp [hashVisitCode,is.cleaned,code.long]

-- Deciding, extending and announcing make no row and unmake none.
theorem step_ids {desk after : State} {op : Op} (taken : step settings desk op = some after) :
    after.rows.map Visit.id = desk.rows.map Visit.id := by
  cases op with
  | tick later =>
    simp only [step,Option.ite_none_right_eq_some,Option.some.injEq] at taken
    obtain ⟨_,rfl⟩ := taken
    rfl
  | begin currentUser request =>
    simp only [step] at taken
    split at taken <;> cases taken <;> rfl
  | finish position now =>
    simp only [step] at taken
    split at taken
    · cases taken
    · simp only [Option.ite_none_right_eq_some,Option.some.injEq] at taken
      obtain ⟨_,rfl⟩ := taken
      simp only [applyTo,List.map_map]
      apply List.map_congr_left
      intro row _
      simp only [Function.comp]
      split <;> rfl
  | sweep =>
    cases taken
    rfl
  | send position =>
    simp only [step] at taken
    split at taken
    · cases taken
    · split at taken <;> cases taken
      rfl
  | close position =>
    simp only [step] at taken
    split at taken
    · cases taken
    · simp only [Option.ite_none_right_eq_some,Option.some.injEq] at taken
      obtain ⟨_,rfl⟩ := taken
      simp only [List.map_map]
      apply List.map_congr_left
      intro row _
      simp only [Function.comp,stamped]
      split <;> rfl

structure Listed (sha256 : Text → Text) (s : Lobby) : Prop where
  rows : s.desk.rows.map Visit.id = s.cards.map Card.id
  apart : (s.cards.map Card.id).Nodup
  fresh : ∀ card ∈ s.cards, card.id < s.nextId
  hashes : s.cards.Pairwise (fun one two => one.visitCodeHash = none ∨ one.visitCodeHash ≠ two.visitCodeHash)
  coded : ∀ card ∈ s.cards, ∀ hash ∈ card.visitCodeHash, ∃ code, (card.id,code) ∈ s.issued ∧ hash = sha256 code.raw
  issued : ∀ pair ∈ s.issued, pair.1 < s.nextId ∧ ∀ card ∈ s.cards, card.id = pair.1 → card.visitCodeHash = some (sha256 pair.2.raw)

theorem Codeless.listed (codeless : Codeless s) : Listed sha256 s where
  rows := codeless.rows
  apart := codeless.apart
  fresh := codeless.fresh
  hashes := List.pairwise_of_forall_mem_list (fun one member _ _ => .inl (codeless.none_ one member))
  coded := by
    intro card member hash is
    rw [codeless.none_ card member] at is
    cases is
  issued := by simp [codeless.unissued]

theorem Listed.desks (listed : Listed sha256 s) {desk : State} (ids : desk.rows.map Visit.id = s.desk.rows.map Visit.id) :
    Listed sha256 {s with desk := desk} :=
  ⟨ids.trans listed.rows,listed.apart,listed.fresh,listed.hashes,listed.coded,listed.issued⟩

theorem Listed.admits (listed : Listed sha256 s) (ttlMinutes : Nat) (payload : GuestCheckInRequest) (code : VisitCode) (row : Visit) (mine : row.id = s.nextId)
    (unheld : ∀ card ∈ s.cards, card.visitCodeHash ≠ some (sha256 code.raw)) : Listed sha256 {
      desk := {s.desk with rows := s.desk.rows ++ [row]}
      cards := s.cards ++ [cardFor ttlMinutes s payload (some (sha256 code.raw))]
      nextId := s.nextId+1
      issued := (s.nextId,code) :: s.issued} := by
  have new : (cardFor ttlMinutes s payload (some (sha256 code.raw))).id = s.nextId := rfl
  refine ⟨?_,?_,?_,?_,?_,?_⟩
  · simp [listed.rows,mine,new]
  · simp only [List.map_append,List.map_cons,List.map_nil,new]
    refine List.nodup_append.mpr ⟨listed.apart,List.nodup_singleton _,?_⟩
    intro id old other is
    obtain rfl := List.mem_singleton.mp is
    obtain ⟨card,member,rfl⟩ := List.mem_map.mp old
    exact Nat.ne_of_lt (listed.fresh card member)
  · intro card member
    rcases List.mem_append.mp member with old | is
    · exact Nat.lt_succ_of_lt (listed.fresh card old)
    · obtain rfl := List.mem_singleton.mp is
      exact Nat.lt_succ_self _
  · refine List.pairwise_append.mpr ⟨listed.hashes,List.pairwise_singleton ..,?_⟩
    intro card member other is
    obtain rfl := List.mem_singleton.mp is
    exact .inr (unheld card member)
  · intro card member hash is
    rcases List.mem_append.mp member with old | last
    · obtain ⟨code,shown,same⟩ := listed.coded card old hash is
      exact ⟨code,List.mem_cons_of_mem _ shown,same⟩
    · obtain rfl := List.mem_singleton.mp last
      cases is
      exact ⟨code,List.mem_cons_self ..,rfl⟩
  · intro pair member
    rcases List.mem_cons.mp member with rfl | old
    · refine ⟨Nat.lt_succ_self _,?_⟩
      intro card there same
      rcases List.mem_append.mp there with before | last
      · exact absurd same (Nat.ne_of_lt (listed.fresh card before))
      · obtain rfl := List.mem_singleton.mp last
        rfl
    · obtain ⟨before,coded⟩ := listed.issued pair old
      refine ⟨Nat.lt_succ_of_lt before,?_⟩
      intro card there same
      rcases List.mem_append.mp there with older | last
      · exact coded card older same
      · obtain rfl := List.mem_singleton.mp last
        exact absurd same (Nat.ne_of_gt before)

theorem Listed.purges (listed : Listed sha256 s) (keep : Card → Bool) : Listed sha256 {s with
    cards := s.cards.filter keep
    desk := {s.desk with rows := s.desk.rows.filter (fun row => (s.cards.filter keep).any (fun card => card.id = row.id))}} := by
  have kept : ∀ card ∈ s.cards.filter keep, card ∈ s.cards := fun card member => List.mem_of_mem_filter member
  refine ⟨?_,?_,fun card member => listed.fresh card (kept card member),listed.hashes.filter _,?_,?_⟩
  · have stays (card : Card) (there : card ∈ s.cards) : (s.cards.filter keep).any (fun other => other.id = card.id) = keep card := by
      rw [Bool.eq_iff_iff,List.any_eq_true]
      constructor
      · intro found
        obtain ⟨other,member,same⟩ := found
        obtain ⟨old,keeps⟩ := List.mem_filter.mp member
        rwa [List.inj_on_of_nodup_map listed.apart there old (of_decide_eq_true same).symm]
      · intro keeps
        exact ⟨card,List.mem_filter.mpr ⟨there,keeps⟩,by simp⟩
    have ids := congrArg (List.filter (fun id => (s.cards.filter keep).any (fun card => card.id = id))) listed.rows
    rw [List.filter_map,List.filter_map] at ids
    exact ids.trans (congrArg _ (List.filter_congr stays))
  · exact listed.apart.sublist (List.Sublist.map _ List.filter_sublist)
  · intro card member
    exact listed.coded card (kept card member)
  · intro pair member
    exact ⟨(listed.issued pair member).1,fun card there => (listed.issued pair member).2 card (kept card there)⟩

theorem Listed.checksIn (listed : Listed sha256 s) (payload : GuestCheckInRequest) (code : VisitCode) :
    Listed sha256 (processGuestEntry sha256 ttlMinutes s payload code) := by
  unfold processGuestEntry
  simp only [hash_shown]
  split
  · exact listed
  · split
    · exact listed
    · rename_i admitted
      refine listed.admits ttlMinutes payload code _ rfl ?_
      intro card member same
      apply admitted
      rw [Bool.or_eq_true]
      exact .inr (List.any_eq_true.mpr ⟨card,member,by simp [same]⟩)

theorem Listed.preserved {event : Event} (listed : Listed sha256 s) (taken : happen sha256 settings ttlMinutes retentionDays s event = some next) :
    Listed sha256 next := by
  cases event with
  | desk op =>
    obtain ⟨desk,stepped,rfl⟩ := Option.map_eq_some_iff.mp taken
    exact listed.desks (step_ids stepped)
  | checkIn payload code =>
    cases taken
    exact listed.checksIn payload code
  | purge =>
    cases taken
    unfold purgeOldGuestCheckIns
    split
    · exact listed
    · exact listed.purges (fun card => !isOld retentionDays s.desk.clock card)

theorem Listed.row (listed : Listed sha256 s) (member : card ∈ s.cards) : ∃ row ∈ s.desk.rows, row.id = card.id ∧
    s.desk.rows.find? (fun row => row.id = card.id) = some row := by
  have there : card.id ∈ s.desk.rows.map Visit.id := listed.rows ▸ List.mem_map_of_mem member
  obtain ⟨row,inside,same⟩ := List.mem_map.mp there
  have some_ : (s.desk.rows.find? (fun row => row.id = card.id)).isSome := List.find?_isSome.mpr ⟨row,inside,by simpa using same⟩
  obtain ⟨found,is⟩ := Option.isSome_iff_exists.mp some_
  exact ⟨found,List.mem_of_find?_eq_some is,by simpa using List.find?_some is,is⟩

-- One card at most has a hash.
theorem Listed.found (listed : Listed sha256 s) {hash : Text} (member : card ∈ s.cards) (is : card.visitCodeHash = some hash) :
    s.cards.find? (fun card => card.visitCodeHash = some hash) = some card := by
  have some_ : (s.cards.find? (fun card => card.visitCodeHash = some hash)).isSome := List.find?_isSome.mpr ⟨card,member,by simpa using is⟩
  obtain ⟨found,finds⟩ := Option.isSome_iff_exists.mp some_
  have has : found.visitCodeHash = some hash := by simpa using List.find?_some finds
  have forth : s.cards.Pairwise (fun one two => one.visitCodeHash = some hash → two.visitCodeHash = some hash → one = two) :=
    listed.hashes.imp (fun differ one two => absurd differ (by simp [one,two]))
  have back : s.cards.Pairwise (flip fun one two => one.visitCodeHash = some hash → two.visitCodeHash = some hash → one = two) :=
    listed.hashes.imp (fun differ one two => absurd differ (by simp [one,two]))
  have same := forth.forall_of_forall_of_flip (fun _ _ _ _ => rfl) back (List.mem_of_find?_eq_some finds) member has is
  rw [finds,same]

-- What opens a check-in's status, and what of it.
structure Opens (sha256 : Text → Text) (s : Lobby) (typed : Text) (status : GuestVisitStatus) (id : Nat) (code : VisitCode) : Prop where
  issued : (id,code) ∈ s.issued
  alike : hashVisitCode sha256 typed = some (sha256 code.raw)
  there : ∃ row ∈ s.desk.rows, ∃ card ∈ s.cards, row.id = id ∧ card.id = id ∧ expired card s.desk.clock = false ∧
    status = ⟨row.handshakeStatus,card.timestampMarked,row.visitExpiresAt⟩

theorem Listed.answers (listed : Listed sha256 s) : getVisitStatus sha256 s typed = .ok status ↔ ∃ id code, Opens sha256 s typed status id code := by
  constructor
  · intro ok
    unfold getVisitStatus at ok
    split at ok
    · cases ok
    · rename_i digest hashed
      split at ok
      · cases ok
      · rename_i card found
        have member := List.mem_of_find?_eq_some found
        have has : card.visitCodeHash = some digest := by simpa using List.find?_some found
        split at ok
        · cases ok
        · rename_i live
          obtain ⟨row,inside,same,is⟩ := listed.row member
          simp only [is] at ok
          cases ok
          obtain ⟨code,shown,rfl⟩ := listed.coded card member digest has
          exact ⟨card.id,code,shown,hashed,row,inside,card,member,same,rfl,by simpa using live,rfl⟩
  · intro opens
    obtain ⟨id,code,opens⟩ := opens
    obtain ⟨row,inside,card,member,same,rfl,live,rfl⟩ := opens.there
    have has := (listed.issued _ opens.issued).2 card member rfl
    obtain ⟨found,there,alike,is⟩ := listed.row member
    have ids : (s.desk.rows.map Visit.id).Nodup := listed.rows ▸ listed.apart
    obtain rfl := List.inj_on_of_nodup_map ids there inside (alike.trans same.symm)
    simp only [getVisitStatus,opens.alike,listed.found member has,live,is]
    rfl

-- Whatever happens at the desk and at the kiosk: a code opens the status of the
-- check-in it was shown for, as it stands by then, typed in any case and with
-- anything between its characters, until it lapses or the check-in is purged; and
-- what opens a status hashes as the code of that check-in does.
theorem visit_codes {start : Lobby} (codeless : Codeless start) (path : Runs.Reached (Happens sha256 settings ttlMinutes retentionDays) start s) :
    (∀ typed status, getVisitStatus sha256 s typed = .ok status ↔ ∃ id code, Opens sha256 s typed status id code) ∧
    ∀ id code, (id,code) ∈ s.issued → ∀ card ∈ s.cards, card.id = id → expired card s.desk.clock = false →
      ∃ row ∈ s.desk.rows, row.id = id ∧ ∀ typed, Typed code.raw typed ∨ typed = code.shown →
        getVisitStatus sha256 s typed = .ok ⟨row.handshakeStatus,card.timestampMarked,row.visitExpiresAt⟩ := by
  have listed : Listed sha256 s := path.invariant (Listed sha256) codeless.listed (fun _ _ _ listed taken => listed.preserved taken)
  refine ⟨fun typed status => listed.answers,?_⟩
  intro id code issued card member same live
  obtain ⟨row,inside,alike,_⟩ := listed.row member
  refine ⟨row,inside,alike.trans same,?_⟩
  intro typed is
  have hashed : hashVisitCode sha256 typed = some (sha256 code.raw) := by
    rcases is with retyped | rfl
    · exact hash_typed retyped
    · exact hash_shown sha256 code
  exact listed.answers.mpr ⟨id,code,issued,hashed,row,inside,card,member,alike.trans same,same,live,rfl⟩

end

def nurse : User := ⟨"s1","Ada","ada@ward.test",.staff,none,none,false⟩
def front : Lobby := ⟨⟨0,[nurse],[],[],[],[]⟩,[],1,[]⟩
def visitor : GuestCheckInRequest := ⟨"Visitor","555-0100","Clinic","s1","a visit to the ward"⟩

theorem issued_drawn : ∀ c ∈ "ABCDEFGHJKMN2345".toList, c ∈ visitCodeAlphabet := by
  intro c member
  have all : "ABCDEFGHJKMN2345".toList.all (visitCodeAlphabet.contains ·) = true := by decide +kernel
  simpa using List.all_eq_true.mp all c member

def issuedCode : VisitCode := ⟨"ABCDEFGHJKMN2345".toList,by decide +kernel,issued_drawn⟩

theorem front_codeless : Codeless front := ⟨rfl,List.nodup_nil,nofun,nofun,rfl⟩

-- Approved in between, the visit is found by its code typed in small letters with
-- blanks, and not by another.
theorem typed_code_opens : ∃ s, Runs.trace (happen id ⟨false,60,0⟩ 30 0) (fun _ _ => True) front
      [.checkIn visitor issuedCode,.desk (.begin nurse (.decide 1 ⟨.verifiedApproved⟩)),.desk (.finish 0 0)] = some s ∧
    getVisitStatus id s "abcd efgh jkmn 2345".toList = .ok ⟨.verifiedApproved,0,some 3600000000⟩ ∧
    ∀ id_ code, ¬Opens id s "ABCD-EFGH-JKMN-2346".toList ⟨.verifiedApproved,0,some 3600000000⟩ id_ code := by
  obtain ⟨s,traced,is⟩ := Option.map_eq_some_iff.mp (show (Runs.trace (happen id ⟨false,60,0⟩ 30 0) (fun _ _ => True) front
      [.checkIn visitor issuedCode,.desk (.begin nurse (.decide 1 ⟨.verifiedApproved⟩)),.desk (.finish 0 0)]).map (fun s =>
        (getVisitStatus id s "abcd efgh jkmn 2345".toList,getVisitStatus id s "ABCD-EFGH-JKMN-2346".toList)) =
    some (.ok ⟨.verifiedApproved,0,some 3600000000⟩,.error .notFound) by decide +kernel)
  simp only [Prod.mk.injEq] at is
  refine ⟨s,traced,is.1,?_⟩
  intro id_ code opens
  have answers := ((visit_codes front_codeless (Runs.trace_reached .start traced).unguard).1 _ _).mpr ⟨id_,code,opens⟩
  rw [is.2] at answers
  cases answers

end ChronosLedger.GuestVisits
