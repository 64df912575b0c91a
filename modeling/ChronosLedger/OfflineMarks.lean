import ChronosLedger.Records
import ChronosLedger.Library.Outboxes

namespace ChronosLedger.Offline

open Outboxes

-- What the queue of a device holds: the token of the moment and the payload.
structure QueuedMark where
  token : String
  payload : AttendanceMarkRequest
  deriving DecidableEq, Repr

-- A device without a network queues what it would have sent.
def markPresence (token : String) (ledgerInstanceId : Nat) (userId : String) : QueuedMark := ⟨token,⟨ledgerInstanceId,userId,.present⟩⟩

-- Any answer below 500 is a verdict, a refusal included.
def verdict (status : Nat) : Bool := decide (status < 500)

-- A request to mark that has looked everything up and written nothing yet.
structure MarkReading where
  ledgerId : Nat
  record : AttendanceMarkRequest
  existing : Option VerificationLedger
  agentId : String
  deriving DecidableEq, Repr

def OnPair (mark : VerificationLedger) (ledgerId : Nat) (memberId : String) : Prop :=
  mark.ledgerInstanceId = ledgerId ∧ mark.memberId = memberId

instance (mark : VerificationLedger) (ledgerId : Nat) (memberId : String) : Decidable (OnPair mark ledgerId memberId) :=
  inferInstanceAs (Decidable (_ ∧ _))

-- The fence refuses with a 400 or not at all.
def fenceAnswer : Option (String × ErrorCode) → Answer Unit
  | none => .ok ()
  | some (message,code) => .error (refuse 400 message code)

-- `mark_attendance` up to the query of `_write_marks`.
def readMark (db : Database) (payload : AttendanceMarkRequest) (fence : Answer Unit) (currentUser : User) : Answer MarkReading := do
  let ledger ← ledgerOr404 db payload.ledgerInstanceId
  if currentUser.roleType = .member then
    ensure (payload.memberId = currentUser.id) (refuse 403 "Cannot mark attendance for another member" .forbidden)
    fence
  else ensureLedgerAuthority db currentUser ledger
  refuseUnknownMembers db [payload.memberId]
  .ok ⟨ledger.id,payload,db.marks.find? (fun mark => mark.ledgerInstanceId = ledger.id ∧ mark.memberId = payload.memberId),currentUser.id⟩

-- The agent is only written where it differs from the one that was read.
def remark (read : VerificationLedger) (reading : MarkReading) (mark : VerificationLedger) : VerificationLedger :=
  if mark.id = read.id then
    {mark with
      markingStatus := reading.record.markingStatus
      authorizingAgentId := if read.authorizingAgentId = some reading.agentId then mark.authorizingAgentId else some reading.agentId}
  else mark

-- The insert or update and its commit, on whatever the database holds by then:
-- nothing where a key of the table is in the way, or the row is gone.
def commitMark (db : Database) (reading : MarkReading) : Option Database :=
  match reading.existing with
  | none =>
    if (db.day? reading.ledgerId).isSome ∧ (db.user? reading.record.memberId).isSome ∧ (db.user? reading.agentId).isSome ∧
        ∀ mark ∈ db.marks, ¬ OnPair mark reading.ledgerId reading.record.memberId then
      some {db with marks := db.marks ++ [⟨nextId (db.marks.map VerificationLedger.id),reading.ledgerId,reading.record.memberId,
        reading.record.markingStatus,some reading.agentId⟩]}
    else none
  | some mark =>
    if mark.markingStatus = reading.record.markingStatus then some db
    else if mark.id ∈ db.marks.map VerificationLedger.id ∧
        (mark.authorizingAgentId = some reading.agentId ∨ (db.user? reading.agentId).isSome) then
      some {db with marks := db.marks.map (remark mark reading)}
    else none

-- The primary key and `single_member_per_instance_record`.
structure SingleMarks (db : Database) : Prop where
  ids : (db.marks.map VerificationLedger.id).Nodup
  pairs : (db.marks.map (fun mark => (mark.ledgerInstanceId,mark.memberId))).Nodup

instance (db : Database) : Decidable (SingleMarks db) :=
  decidable_of_iff ((db.marks.map VerificationLedger.id).Nodup ∧ (db.marks.map (fun mark => (mark.ledgerInstanceId,mark.memberId))).Nodup)
    ⟨fun both => ⟨both.1,both.2⟩,fun single => ⟨single.ids,single.pairs⟩⟩

-- The rest of the program, one operation at a time. What would break a key of
-- the table is rolled back.
def performed (rt : Runtime) (db : Database) (op : Operation) : Database :=
  if SingleMarks (perform rt db op) then perform rt db op else db

-- A device, the database, and the requests that are between the two halves.
structure System where
  device : Outbox QueuedMark
  db : Database
  reading : List (Nat × MarkReading)
  deriving DecidableEq, Repr

-- A token signs in somebody or nobody, which is up to the move: `turnAway` is
-- every answer that comes without a write, from a 401 to an outage.
inductive Event where
  | mark (token : String) (ledgerInstanceId : Nat) (userId : String)
  | openFlush
  | begin (flush : Nat)
  | send (flush : Nat)
  | settle (flush status : Nat) (removes : Bool)
  | fail (flush : Nat)
  | stop (flush : Nat)
  | arrive (attempt : Nat) (currentUser : User) (outside : Option (String × ErrorCode))
  | commit (attempt : Nat)
  | turnAway (attempt status : Nat)
  | other (op : Operation)

variable (rt : Runtime)

def System.move (s : System) (move : Move QueuedMark) : Option System := do
  let device ← s.device.act verdict move
  some {s with device := device}

def System.answers (s : System) (attempt status : Nat) : Option System :=
  {s with reading := s.reading.filter (fun request => request.1 ≠ attempt)}.move (.answer attempt status)

def System.act (s : System) : Event → Option System
  | .mark token ledgerInstanceId userId => s.move (.add (markPresence token ledgerInstanceId userId))
  | .openFlush => s.move .openFlush
  | .begin flush => s.move (.begin flush)
  | .send flush => s.move (.send flush)
  | .settle flush status removes => s.move (.settle flush status removes)
  | .fail flush => s.move (.fail flush)
  | .stop flush => s.move (.stop flush)
  | .arrive attempt currentUser outside =>
    if s.device.Open attempt ∧ attempt ∉ s.reading.map Prod.fst then
      match s.device.sent[attempt]? with
      | none => none
      | some parcel =>
        match readMark s.db parcel.content.payload (fenceAnswer outside) currentUser with
        | .ok reading => some {s with reading := s.reading ++ [(attempt,reading)]}
        | .error refusal => s.answers attempt refusal.statusCode
    else none
  | .commit attempt =>
    match s.reading.find? (fun request => request.1 = attempt) with
    | none => none
    | some (_,reading) =>
      match commitMark s.db reading with
      | some next => {s with db := next}.answers attempt 200
      | none => s.answers attempt 500
  | .turnAway attempt status => if 400 ≤ status then s.answers attempt status else none
  | .other op => some {s with db := performed rt s.db op}

def System.start (db : Database) : System := ⟨.empty,db,[]⟩

variable {db next : Database} {currentUser : User}

theorem fenceAnswer_refuses {outside : Option (String × ErrorCode)} {refusal : Refusal} (refused : fenceAnswer outside = .error refusal) :
    refusal.statusCode = 400 := by
  cases outside with
  | none => cases refused
  | some pair =>
    cases refused
    rfl

-- Read and written with nothing in between, a request is `mark_attendance`.
theorem readMark_writes (payload : AttendanceMarkRequest) (fence : Answer Unit) :
    markAttendance db payload fence currentUser =
      (readMark db payload fence currentUser).map (fun reading => (writeMarks db reading.ledgerId [reading.record] reading.agentId,())) := by
  unfold markAttendance readMark
  cases ledgerOr404 db payload.ledgerInstanceId with
  | error refusal => rfl
  | ok ledger =>
    simp only [bind,Except.bind]
    split
    · cases ensure (payload.memberId = currentUser.id) (refuse 403 "Cannot mark attendance for another member" .forbidden) with
      | error refusal => rfl
      | ok =>
        cases fence with
        | error refusal => rfl
        | ok =>
          cases refuseUnknownMembers db [payload.memberId] with
          | error refusal => rfl
          | ok => rfl
    · cases ensureLedgerAuthority db currentUser ledger with
      | error refusal => rfl
      | ok =>
        cases refuseUnknownMembers db [payload.memberId] with
        | error refusal => rfl
        | ok => rfl

-- What a request knows once it has looked everything up.
structure Read (db : Database) (payload : AttendanceMarkRequest) (currentUser : User) (reading : MarkReading) : Prop where
  ledger : reading.ledgerId = payload.ledgerInstanceId
  record : reading.record = payload
  agent : reading.agentId = currentUser.id
  day : (db.day? reading.ledgerId).isSome = true
  member : (db.user? payload.memberId).isSome = true
  existing : reading.existing = db.marks.find? (fun mark => mark.ledgerInstanceId = reading.ledgerId ∧ mark.memberId = reading.record.memberId)

theorem known_member {memberId : String} {done : Unit} (known : refuseUnknownMembers db [memberId] = .ok done) :
    (db.user? memberId).isSome = true := by
  unfold refuseUnknownMembers at known
  rw [ensure_parts] at known
  cases member : db.user? memberId with
  | none => simp [member] at known
  | some user => rfl

theorem readMark_parts {payload : AttendanceMarkRequest} {fence : Answer Unit} {reading : MarkReading}
    (read : readMark db payload fence currentUser = .ok reading) : Read db payload currentUser reading := by
  unfold readMark at read
  rw [bind_parts] at read
  obtain ⟨ledger,there,rest⟩ := read
  have day : db.day? payload.ledgerInstanceId = some ledger := found_parts.mp there
  have same : ledger.id = payload.ledgerInstanceId := (find_key day).2
  have last : ∀ done, refuseUnknownMembers db [payload.memberId] = .ok done → Read db payload currentUser ⟨ledger.id,payload,
      db.marks.find? (fun mark => mark.ledgerInstanceId = ledger.id ∧ mark.memberId = payload.memberId),currentUser.id⟩ :=
    fun done known => ⟨same,rfl,rfl,by rw [same,day]; rfl,known_member known,rfl⟩
  split at rest
  · simp only [bind_parts] at rest
    obtain ⟨_,_,_,_,done,known,kept⟩ := rest
    cases kept
    exact last done known
  · simp only [bind_parts] at rest
    obtain ⟨_,_,done,known,kept⟩ := rest
    cases kept
    exact last done known

theorem bind_refuses {α β : Type} {one : Answer α} {rest : α → Answer β} {refusal : Refusal} :
    (one >>= rest) = .error refusal ↔ one = .error refusal ∨ ∃ first, one = .ok first ∧ rest first = .error refusal := by
  cases one <;> simp [bind,Except.bind]

theorem ensure_refuses {condition : Prop} [Decidable condition] {refusal given : Refusal} (refused : ensure condition given = .error refusal) :
    refusal = given := by
  unfold ensure at refused
  split at refused
  · cases refused
  · exact (Except.error.inj refused).symm

-- Whatever keeps a request from writing answers with a 4xx.
theorem readMark_refuses {payload : AttendanceMarkRequest} {outside : Option (String × ErrorCode)} {refusal : Refusal}
    (refused : readMark db payload (fenceAnswer outside) currentUser = .error refusal) : refusal.statusCode ∈ [400,403,404] := by
  have unknown : ∀ {rest : Unit → Answer MarkReading}, (∀ done, ∃ reading, rest done = .ok reading) →
      (refuseUnknownMembers db [payload.memberId] >>= rest) = .error refusal → refusal.statusCode ∈ [400,403,404] := by
    intro rest writes refused
    rcases bind_refuses.mp refused with missing | ⟨done,_,later⟩
    · rw [ensure_refuses missing]
      simp [notFound,refuse]
    · obtain ⟨reading,ok⟩ := writes done
      rw [ok] at later
      cases later
  unfold readMark at refused
  rcases bind_refuses.mp refused with missing | ⟨ledger,_,rest⟩
  · cases day : db.day? payload.ledgerInstanceId with
    | none =>
      rw [ledgerOr404,day] at missing
      cases missing
      simp [notFound,refuse]
    | some row =>
      rw [ledgerOr404,day] at missing
      cases missing
  · split at rest
    · rcases bind_refuses.mp rest with missing | ⟨_,_,rest⟩
      · rw [ensure_refuses missing]
        simp [refuse]
      · rcases bind_refuses.mp rest with missing | ⟨_,_,rest⟩
        · simp [fenceAnswer_refuses missing]
        · exact unknown (fun _ => ⟨_,rfl⟩) rest
    · rcases bind_refuses.mp rest with missing | ⟨_,_,rest⟩
      · rw [ensure_refuses missing]
        simp [refuse]
      · exact unknown (fun _ => ⟨_,rfl⟩) rest

theorem SingleMarks.same (single : SingleMarks db) {one other : VerificationLedger} (here : one ∈ db.marks) (there : other ∈ db.marks)
    (id : one.id = other.id) : one = other := List.inj_on_of_nodup_map single.ids here there id

theorem SingleMarks.one (single : SingleMarks db) {one other : VerificationLedger} {ledgerId : Nat} {memberId : String}
    (here : one ∈ db.marks) (there : other ∈ db.marks) (on : OnPair one ledgerId memberId) (also : OnPair other ledgerId memberId) :
    one = other :=
  List.inj_on_of_nodup_map single.pairs here there (by simp only [Prod.mk.injEq]; exact ⟨on.1.trans also.1.symm,on.2.trans also.2.symm⟩)

-- With nothing in between, the row that was read is the row that is written.
theorem commitMark_writes {payload : AttendanceMarkRequest} {reading : MarkReading} (single : SingleMarks db)
    (read : Read db payload currentUser reading) (signedIn : (db.user? currentUser.id).isSome = true) :
    commitMark db reading = some (writeMarks db reading.ledgerId [reading.record] reading.agentId) := by
  have found := read.existing
  cases existing : reading.existing with
  | none =>
    rw [existing] at found
    have free : ∀ mark ∈ db.marks, ¬ OnPair mark reading.ledgerId reading.record.memberId := by
      intro mark member on
      exact List.find?_eq_none.mp found.symm mark member (by simpa [OnPair] using on)
    have member := read.member
    rw [← read.record] at member
    have agent : (db.user? reading.agentId).isSome = true := read.agent ▸ signedIn
    have clear : (db.day? reading.ledgerId).isSome ∧ (db.user? reading.record.memberId).isSome ∧ (db.user? reading.agentId).isSome ∧
        ∀ mark ∈ db.marks, ¬ OnPair mark reading.ledgerId reading.record.memberId := ⟨read.day,member,agent,free⟩
    simp only [commitMark,existing,writeMarks,List.foldl_cons,List.foldl_nil,writeMark,← found,if_pos clear]
  | some mark =>
    rw [existing] at found
    have member := List.mem_of_find?_eq_some found.symm
    have agent : (db.user? reading.agentId).isSome = true := read.agent ▸ signedIn
    have writable : mark.id ∈ db.marks.map VerificationLedger.id ∧
        (mark.authorizingAgentId = some reading.agentId ∨ (db.user? reading.agentId).isSome) :=
      ⟨List.mem_map_of_mem member,.inr agent⟩
    have marks : db.marks.map (remark mark reading) = db.marks.map (fun m => if m.id = mark.id then
        {m with markingStatus := reading.record.markingStatus,authorizingAgentId := some reading.agentId} else m) := by
      apply List.map_congr_left
      intro other there
      unfold remark
      split
      · rename_i same
        cases single.same there member same
        by_cases agent : mark.authorizingAgentId = some reading.agentId <;> simp [agent]
      · rfl
    simp only [commitMark,existing,writeMarks,List.foldl_cons,List.foldl_nil,writeMark,← found,if_pos writable,marks]
    split <;> rfl

-- One request at a time, the two halves are the route.
theorem markAttendance_halves (single : SingleMarks db) (signedIn : (db.user? currentUser.id).isSome = true) (payload : AttendanceMarkRequest)
    (fence : Answer Unit) : markAttendance db payload fence currentUser = .ok (next,()) ↔
    ∃ reading, readMark db payload fence currentUser = .ok reading ∧ commitMark db reading = some next := by
  rw [readMark_writes]
  cases read : readMark db payload fence currentUser with
  | error refusal => simp [Except.map]
  | ok reading => simp [Except.map,commitMark_writes single (readMark_parts read) signedIn]

-- What a commit leaves: it touches the marks alone, takes none away, and its
-- pair has one.
structure Commits (db : Database) (reading : MarkReading) (next : Database) : Prop where
  rest : ∃ marks, next = {db with marks := marks}
  kept : ∀ mark ∈ db.marks, ∃ later ∈ next.marks, SameMark mark later
  single : SingleMarks next
  there : ∃ mark ∈ next.marks, OnPair mark reading.ledgerId reading.record.memberId

theorem remark_same (read : VerificationLedger) (reading : MarkReading) (mark : VerificationLedger) :
    SameMark mark (remark read reading mark) := by
  unfold remark
  split <;> exact ⟨rfl,rfl,rfl⟩

theorem remarked_single (single : SingleMarks db) (read : VerificationLedger) (reading : MarkReading) :
    SingleMarks {db with marks := db.marks.map (remark read reading)} := by
  have ids : (VerificationLedger.id ∘ remark read reading) = VerificationLedger.id := funext (fun mark => (remark_same read reading mark).1)
  have pairs : ((fun mark : VerificationLedger => (mark.ledgerInstanceId,mark.memberId)) ∘ remark read reading) =
      fun mark => (mark.ledgerInstanceId,mark.memberId) :=
    funext (fun mark => Prod.ext (remark_same read reading mark).2.1 (remark_same read reading mark).2.2)
  refine ⟨?_,?_⟩
  · rw [List.map_map,ids]
    exact single.ids
  · rw [List.map_map,pairs]
    exact single.pairs

theorem inserted_single {mark : VerificationLedger} (single : SingleMarks db) (new : mark.id = nextId (db.marks.map VerificationLedger.id))
    (free : ∀ other ∈ db.marks, ¬ OnPair other mark.ledgerInstanceId mark.memberId) : SingleMarks {db with marks := db.marks ++ [mark]} := by
  have fresh : ∀ other ∈ db.marks, other.id ≠ mark.id :=
    fun other member same => nextId_notMem (db.marks.map VerificationLedger.id) (new ▸ same ▸ List.mem_map_of_mem member)
  have apart : ∀ other ∈ db.marks, (other.ledgerInstanceId,other.memberId) ≠ (mark.ledgerInstanceId,mark.memberId) :=
    fun other member same => free other member ⟨congrArg Prod.fst same,congrArg Prod.snd same⟩
  refine ⟨?_,?_⟩
  · simpa [List.nodup_append,single.ids] using fresh
  · simpa [List.nodup_append,single.pairs] using apart

theorem commitMark_commits {reading : MarkReading} (single : SingleMarks db)
    (known : ∀ mark ∈ reading.existing, OnPair mark reading.ledgerId reading.record.memberId ∧ ∃ later ∈ db.marks, SameMark mark later)
    (committed : commitMark db reading = some next) : Commits db reading next := by
  unfold commitMark at committed
  split at committed
  · split at committed <;> cases committed
    rename_i clear
    exact ⟨⟨_,rfl⟩,fun mark member => ⟨mark,List.mem_append_left _ member,rfl,rfl,rfl⟩,inserted_single single rfl clear.2.2.2,
      _,List.mem_append_right _ (List.mem_singleton_self _),rfl,rfl⟩
  · rename_i mark existing
    obtain ⟨on,later,there,_,ledger,member⟩ := known mark existing
    have stays : OnPair later reading.ledgerId reading.record.memberId := ⟨ledger.trans on.1,member.trans on.2⟩
    split at committed
    · cases committed
      exact ⟨⟨db.marks,rfl⟩,fun mark member => ⟨mark,member,rfl,rfl,rfl⟩,single,later,there,stays⟩
    · split at committed <;> cases committed
      obtain ⟨_,ledger,member⟩ := remark_same mark reading later
      exact ⟨⟨_,rfl⟩,fun other here => ⟨_,List.mem_map_of_mem here,remark_same mark reading other⟩,remarked_single single mark reading,
        _,List.mem_map_of_mem there,ledger.trans stays.1,member.trans stays.2⟩

def PresentOn (db : Database) (ledgerId : Nat) (memberId : String) : Prop :=
  ∃ mark ∈ db.marks, OnPair mark ledgerId memberId ∧ mark.markingStatus = .present

instance (db : Database) (ledgerId : Nat) (memberId : String) : Decidable (PresentOn db ledgerId memberId) :=
  inferInstanceAs (Decidable (∃ mark ∈ db.marks, _))

-- A request that marks somebody present takes nobody's presence away.
theorem commitMark_present {reading : MarkReading} {ledgerId : Nat} {memberId : String} (marks : reading.record.markingStatus = .present)
    (committed : commitMark db reading = some next) (present : PresentOn db ledgerId memberId) : PresentOn next ledgerId memberId := by
  obtain ⟨mark,member,on,status⟩ := present
  unfold commitMark at committed
  split at committed
  · split at committed <;> cases committed
    exact ⟨mark,List.mem_append_left _ member,on,status⟩
  · rename_i read _
    split at committed
    · cases committed
      exact ⟨mark,member,on,status⟩
    · split at committed <;> cases committed
      obtain ⟨_,ledger,who⟩ := remark_same read reading mark
      refine ⟨_,List.mem_map_of_mem member,⟨ledger.trans on.1,who.trans on.2⟩,?_⟩
      unfold remark
      split
      · exact marks
      · exact status

-- And it leaves its own pair present, unless it read that and it has changed since.
theorem commitMark_marks {reading : MarkReading} (marks : reading.record.markingStatus = .present)
    (known : ∀ mark ∈ reading.existing, OnPair mark reading.ledgerId reading.record.memberId ∧ ∃ later ∈ db.marks, SameMark mark later)
    (seen : ∀ mark ∈ reading.existing, mark.markingStatus = .present → PresentOn db reading.ledgerId reading.record.memberId)
    (committed : commitMark db reading = some next) : PresentOn next reading.ledgerId reading.record.memberId := by
  unfold commitMark at committed
  split at committed
  · split at committed <;> cases committed
    exact ⟨_,List.mem_append_right _ (List.mem_singleton_self _),⟨rfl,rfl⟩,marks⟩
  · rename_i mark existing
    obtain ⟨on,later,there,id,ledger,member⟩ := known mark existing
    split at committed
    · rename_i same
      cases committed
      exact seen mark existing (same.trans marks)
    · split at committed <;> cases committed
      refine ⟨_,List.mem_map_of_mem there,?_,?_⟩
      · obtain ⟨_,one,two⟩ := remark_same mark reading later
        exact ⟨one.trans (ledger.trans on.1),two.trans (member.trans on.2)⟩
      · simp [remark,id,marks]

def MarkedFor (db : Database) (payload : AttendanceMarkRequest) : Prop :=
  ∃ mark ∈ db.marks, OnPair mark payload.ledgerInstanceId payload.memberId

structure Sound (s : System) : Prop where
  posted : Posted verdict s.device
  keys : Keys s.db
  single : SingleMarks s.db
  reading : ∀ request ∈ s.reading, (∃ parcel, s.device.sent[request.1]? = some parcel ∧ parcel.content.payload = request.2.record) ∧
    request.2.ledgerId = request.2.record.ledgerInstanceId ∧
    ∀ mark ∈ request.2.existing, OnPair mark request.2.ledgerId request.2.record.memberId ∧ ∃ later ∈ s.db.marks, SameMark mark later
  accepted : ∀ parcel, s.device.Answered parcel 200 → MarkedFor s.db parcel.content.payload

variable {rt : Runtime} {s after : System} {attempt status : Nat} {ledgerId : Nat} {memberId : String}

theorem move_parts {move : Move QueuedMark} (taken : s.move move = some after) :
    ∃ device, s.device.act verdict move = some device ∧ after = {s with device := device} := by
  obtain ⟨device,acted,same⟩ := Option.bind_eq_some_iff.mp taken
  exact ⟨device,acted,(Option.some.inj same).symm⟩

theorem sameMark_trans {a b c : VerificationLedger} (one : SameMark a b) (two : SameMark b c) : SameMark a c :=
  ⟨two.1.trans one.1,two.2.1.trans one.2.1,two.2.2.trans one.2.2⟩

theorem MarkedFor.stays {payload : AttendanceMarkRequest} (marked : MarkedFor db payload)
    (kept : ∀ mark ∈ db.marks, ∃ later ∈ next.marks, SameMark mark later) : MarkedFor next payload := by
  obtain ⟨mark,member,on⟩ := marked
  obtain ⟨later,there,_,ledger,who⟩ := kept mark member
  exact ⟨later,there,ledger.trans on.1,who.trans on.2⟩

-- A database with the same marks and maybe more of them.
theorem Sound.writes (sound : Sound s) (keys : Keys next) (single : SingleMarks next)
    (kept : ∀ mark ∈ s.db.marks, ∃ later ∈ next.marks, SameMark mark later) : Sound {s with db := next} := by
  refine {sound with keys := keys,single := single,reading := ?_,accepted := fun parcel answered => (sound.accepted parcel answered).stays kept}
  intro request member
  obtain ⟨of,ledger,existing⟩ := sound.reading request member
  refine ⟨of,ledger,fun mark read => ?_⟩
  obtain ⟨on,middle,there,same⟩ := existing mark read
  obtain ⟨later,here,again⟩ := kept middle there
  exact ⟨on,later,here,sameMark_trans same again⟩

theorem Sound.fewer (sound : Sound s) (keeps : Nat × MarkReading → Bool) : Sound {s with reading := s.reading.filter keeps} :=
  {sound with reading := fun request member => sound.reading request (List.mem_filter.mp member).1}

-- The device goes on; an acceptance comes only to what is marked.
theorem Sound.moves {move : Move QueuedMark} (sound : Sound s) (taken : s.move move = some after)
    (backed : ∀ attempt parcel, move = .answer attempt 200 → s.device.sent[attempt]? = some parcel → MarkedFor s.db parcel.content.payload) :
    Sound after := by
  obtain ⟨device,acted,rfl⟩ := move_parts taken
  obtain ⟨sent,_⟩ := act_history acted
  refine {sound with posted := act_posted sound.posted acted,reading := ?_,accepted := ?_}
  · intro request member
    obtain ⟨⟨parcel,there,payload⟩,rest⟩ := sound.reading request member
    exact ⟨⟨parcel,sent _ _ there,payload⟩,rest⟩
  · intro parcel answered
    rcases act_answered sound.posted acted answered with before | ⟨attempt,given,there⟩
    · exact sound.accepted parcel before
    · exact backed attempt parcel given there

theorem Sound.refuses (sound : Sound s) (refused : status ≠ 200) (taken : s.answers attempt status = some after) : Sound after := by
  refine (sound.fewer _).moves taken ?_
  intro _ _ same
  cases same
  exact absurd rfl refused

theorem Sound.arrives {currentUser : User} {outside : Option (String × ErrorCode)} (sound : Sound s)
    (taken : s.act rt (.arrive attempt currentUser outside) = some after) : Sound after := by
  simp only [System.act] at taken
  split at taken
  · split at taken
    · cases taken
    · rename_i parcel there
      split at taken
      · rename_i reading read
        cases taken
        have parts := readMark_parts read
        refine {sound with reading := ?_}
        intro request member
        rcases List.mem_append.mp member with old | new
        · exact sound.reading request old
        · cases List.mem_singleton.mp new
          refine ⟨⟨parcel,there,parts.record.symm⟩,parts.ledger.trans (congrArg _ parts.record.symm),fun mark existing => ?_⟩
          have found : s.db.marks.find? _ = some mark := parts.existing.symm.trans existing
          exact ⟨by simpa [OnPair] using List.find?_some found,mark,List.mem_of_find?_eq_some found,rfl,rfl,rfl⟩
      · rename_i refusal refused
        have status := readMark_refuses refused
        exact sound.refuses (fun same => by rw [same] at status; simp at status) taken
  · cases taken

theorem marked_keys (keys : Keys db) (marks : List VerificationLedger) : Keys {db with marks := marks} :=
  ⟨⟨keys.resources,keys.reservations⟩,keys.activities,keys.slots,keys.days⟩

theorem Sound.commits (sound : Sound s) (taken : s.act rt (.commit attempt) = some after) : Sound after := by
  simp only [System.act] at taken
  split at taken
  · cases taken
  · rename_i attempt' reading found
    have same : attempt' = attempt := by simpa using List.find?_some found
    obtain ⟨⟨parcel,there,payload⟩,ledger,existing⟩ := sound.reading _ (List.mem_of_find?_eq_some found)
    split at taken
    · rename_i next committed
      obtain ⟨⟨marks,rest⟩,kept,single,mark,here,on⟩ := commitMark_commits sound.single existing committed
      have wrote : Sound {s with db := next} := sound.writes (rest ▸ marked_keys sound.keys marks) single kept
      refine (wrote.fewer _).moves taken ?_
      intro _ other given sent
      cases given
      subst same
      have one : parcel = other := Option.some.inj (there.symm.trans sent)
      subst one
      refine ⟨mark,here,?_⟩
      rw [payload,← ledger]
      exact on
    · exact sound.refuses (by decide) taken

theorem Sound.others (sound : Sound s) (op : Operation) : Sound {s with db := performed rt s.db op} := by
  unfold performed
  split
  · rename_i single
    exact sound.writes ((perform_path sound.keys).1.keys sound.keys) single (perform_kept sound.keys).marks
  · exact sound

theorem act_sound {event : Event} (sound : Sound s) (taken : s.act rt event = some after) : Sound after := by
  cases event with
  | mark | openFlush | begin | send | settle | fail | stop => exact sound.moves taken nofun
  | arrive => exact sound.arrives taken
  | commit => exact sound.commits taken
  | turnAway attempt status =>
    simp only [System.act] at taken
    split at taken
    · exact sound.refuses (by omega) taken
    · cases taken
  | other op =>
    cases taken
    exact sound.others op

theorem start_sound (keys : Keys db) (single : SingleMarks db) : Sound (.start db) :=
  ⟨empty_posted,keys,single,nofun,fun _ answered => absurd answered.choose_spec.2 List.not_mem_nil⟩

-- A mark made without a network is in the queue until the server gave its verdict, and
-- what the server accepted is marked, once, however often it was sent and whoever else
-- was marking at the time.
theorem marks_settled (keys : Keys db) (single : SingleMarks db) (path : Runs.Reached (Runs.Acts (System.act rt)) (.start db) s) :
    (∀ parcel ∈ s.device.queued, parcel ∈ s.device.queue ∨ ∃ status, status < 500 ∧ s.device.Answered parcel status) ∧
    (∀ parcel, s.device.Answered parcel 200 → MarkedFor s.db parcel.content.payload) ∧
    ∀ ledgerId memberId, ∀ one ∈ s.db.marks, ∀ other ∈ s.db.marks,
      OnPair one ledgerId memberId → OnPair other ledgerId memberId → one = other := by
  have sound := path.invariant Sound (start_sound keys single) (fun _ _ _ sound taken => act_sound sound taken)
  refine ⟨?_,sound.accepted,fun ledgerId memberId one here other there => sound.single.one here there⟩
  intro parcel queued
  rcases sound.posted.kept parcel queued with there | ⟨status,final,answered⟩
  · exact .inl there
  · exact .inr ⟨status,by simpa [verdict] using final,answered⟩

-- A lesson with one member. She marks herself present without a network, and the
-- page and the service worker find the network at the same moment.
def ada : User := ⟨"ada","Ada","ada@school",.member,none,none,false⟩

def lesson : Database := {staffed 100 with
  users := [registrar,ada]
  activities := [⟨1,"MATH","Mathematics","SCI",1,false⟩]
  ledger := [dayRow 1 ⟨100,clock 9 0,clock 10 0,1,1,none,none,.scheduled⟩]}

def bothFlush : List Event :=
  [.mark "token" 1 "ada",.openFlush,.openFlush,.begin 0,.begin 1,.send 0,.send 1,.arrive 0 ada none,.arrive 1 ada none,.commit 0,.commit 1,
    .settle 1 500 true,.settle 0 200 true]

def adaPresent : VerificationLedger := ⟨1,1,"ada",.present,some "ada"⟩

theorem lesson_keys : Keys lesson := ⟨⟨by decide,by decide⟩,by decide,by decide,by decide⟩

theorem lesson_single : SingleMarks lesson := by decide

-- One of the two requests runs into the key and is kept for another try, which
-- the other one's answer makes needless.
theorem both_settled : ∃ s, Runs.Reached (Runs.Acts (System.act plainRuntime)) (.start lesson) s ∧ s.device.queue = [] ∧
    s.db.marks = [adaPresent] ∧ s.device.answers = [(0,200),(1,500)] ∧
    ∀ parcel ∈ s.device.queued, parcel ∈ s.device.queue ∨ ∃ status, status < 500 ∧ s.device.Answered parcel status := by
  obtain ⟨s,traced,looks⟩ := Option.map_eq_some_iff.mp
    (show (Runs.trace (System.act plainRuntime) (fun _ _ => True) (.start lesson) bothFlush).map
      (fun s => (s.device.queue,s.db.marks,s.device.answers)) = some ([],[adaPresent],[(0,200),(1,500)]) by decide +kernel)
  obtain ⟨queue,marks,answers⟩ : s.device.queue = [] ∧ s.db.marks = [adaPresent] ∧ s.device.answers = [(0,200),(1,500)] := by
    simpa using looks
  have path := (Runs.trace_reached .start traced).unguard
  exact ⟨s,path,queue,marks,answers,(marks_settled lesson_keys lesson_single path).1⟩

-- Nobody else turns a present mark of the pair into something else.
def Spares (rt : Runtime) (ledgerId : Nat) (memberId : String) (s : System) : Event → Prop
  | .other op => PresentOn s.db ledgerId memberId → PresentOn (performed rt s.db op) ledgerId memberId
  | _ => True

instance (s : System) (event : Event) : Decidable (Spares rt ledgerId memberId s event) := by
  unfold Spares
  split <;> infer_instance

-- What marks the pair present leaves it so.
structure Present (ledgerId : Nat) (memberId : String) (s : System) : Prop where
  queued : ∀ parcel ∈ s.device.queued, parcel.content.payload.markingStatus = .present
  seen : ∀ request ∈ s.reading, request.2.ledgerId = ledgerId → request.2.record.memberId = memberId →
    ∀ mark ∈ request.2.existing, mark.markingStatus = .present → PresentOn s.db ledgerId memberId
  settled : ∀ parcel, parcel.content.payload.ledgerInstanceId = ledgerId → parcel.content.payload.memberId = memberId →
    s.device.Answered parcel 200 → PresentOn s.db ledgerId memberId

theorem Present.writes (present : Present ledgerId memberId s)
    (spared : PresentOn s.db ledgerId memberId → PresentOn next ledgerId memberId) : Present ledgerId memberId {s with db := next} :=
  ⟨present.queued,fun request member day who mark existing status => spared (present.seen request member day who mark existing status),
    fun parcel day who answered => spared (present.settled parcel day who answered)⟩

theorem Present.fewer (present : Present ledgerId memberId s) (keeps : Nat × MarkReading → Bool) :
    Present ledgerId memberId {s with reading := s.reading.filter keeps} :=
  {present with seen := fun request member => present.seen request (List.mem_filter.mp member).1}

theorem Present.moves {move : Move QueuedMark} (present : Present ledgerId memberId s) (posted : Posted verdict s.device)
    (taken : s.move move = some after) (adds : ∀ content, move = .add content → content.payload.markingStatus = .present)
    (backed : ∀ attempt parcel, move = .answer attempt 200 → s.device.sent[attempt]? = some parcel →
      parcel.content.payload.ledgerInstanceId = ledgerId → parcel.content.payload.memberId = memberId → PresentOn s.db ledgerId memberId) :
    Present ledgerId memberId after := by
  obtain ⟨device,acted,rfl⟩ := move_parts taken
  refine ⟨?_,present.seen,?_⟩
  · intro parcel member
    rcases act_queued acted member with old | new
    · exact present.queued parcel old
    · exact adds _ new
  · intro parcel day who answered
    rcases act_answered posted acted answered with before | ⟨attempt,given,there⟩
    · exact present.settled parcel day who before
    · exact backed attempt parcel given there day who

theorem Present.refuses (present : Present ledgerId memberId s) (posted : Posted verdict s.device) (refused : status ≠ 200)
    (taken : s.answers attempt status = some after) : Present ledgerId memberId after := by
  refine (present.fewer _).moves posted taken nofun ?_
  intro _ _ same
  cases same
  exact absurd rfl refused

theorem Present.arrives {currentUser : User} {outside : Option (String × ErrorCode)} (present : Present ledgerId memberId s) (sound : Sound s)
    (taken : s.act rt (.arrive attempt currentUser outside) = some after) : Present ledgerId memberId after := by
  simp only [System.act] at taken
  split at taken
  · split at taken
    · cases taken
    · rename_i parcel there
      split at taken
      · rename_i reading read
        cases taken
        have parts := readMark_parts read
        refine {present with seen := ?_}
        intro request member day who mark existing status
        rcases List.mem_append.mp member with old | new
        · exact present.seen request old day who mark existing status
        · cases List.mem_singleton.mp new
          have found : s.db.marks.find? _ = some mark := parts.existing.symm.trans existing
          have on : OnPair mark reading.ledgerId reading.record.memberId := by simpa [OnPair] using List.find?_some found
          exact ⟨mark,List.mem_of_find?_eq_some found,⟨on.1.trans day,on.2.trans who⟩,status⟩
      · rename_i refusal refused
        have status := readMark_refuses refused
        exact present.refuses sound.posted (fun same => by rw [same] at status; simp at status) taken
  · cases taken

-- Every request marks somebody present, and a request of the pair leaves it so.
theorem Present.commits (present : Present ledgerId memberId s) (sound : Sound s) (taken : s.act rt (.commit attempt) = some after) :
    Present ledgerId memberId after := by
  simp only [System.act] at taken
  split at taken
  · cases taken
  · rename_i attempt' reading found
    have same : attempt' = attempt := by simpa using List.find?_some found
    have member := List.mem_of_find?_eq_some found
    obtain ⟨⟨parcel,there,payload⟩,ledger,existing⟩ := sound.reading _ member
    have marks : reading.record.markingStatus = .present := by
      have queued := present.queued parcel (sound.posted.sent parcel (List.mem_of_getElem? there))
      rwa [payload] at queued
    split at taken
    · rename_i next committed
      have wrote : Present ledgerId memberId {s with db := next} := present.writes (commitMark_present marks committed)
      refine (wrote.fewer _).moves sound.posted taken nofun ?_
      intro _ other given sent day who
      cases given
      subst same
      have one : parcel = other := Option.some.inj (there.symm.trans sent)
      subst one
      rw [payload] at day who
      have pair := ledger.trans day
      have marked := commitMark_marks marks existing (fun mark read status => by
        rw [pair,who]
        exact present.seen _ member pair who mark read status) committed
      rwa [pair,who] at marked
    · exact present.refuses sound.posted (by decide) taken

theorem act_present {event : Event} (sound : Sound s) (present : Present ledgerId memberId s) (spares : Spares rt ledgerId memberId s event)
    (taken : s.act rt event = some after) : Present ledgerId memberId after := by
  cases event with
  | mark token day who =>
    refine present.moves sound.posted taken ?_ nofun
    intro content same
    cases same
    rfl
  | openFlush | begin | send | settle | fail | stop => exact present.moves sound.posted taken nofun nofun
  | arrive => exact present.arrives sound taken
  | commit => exact present.commits sound taken
  | turnAway attempt status =>
    simp only [System.act] at taken
    split at taken
    · exact present.refuses sound.posted (by omega) taken
    · cases taken
  | other op =>
    cases taken
    exact present.writes spares

-- Sending a mark twice does no harm: once the server accepted it the member is
-- present, whatever is sent again, as long as nobody else says otherwise.
theorem accepted_present (keys : Keys db) (single : SingleMarks db)
    (path : Runs.Reached (Runs.Guarded (Runs.Acts (System.act rt)) (Spares rt ledgerId memberId)) (.start db) s) :
    ∀ parcel, parcel.content.payload.ledgerInstanceId = ledgerId → parcel.content.payload.memberId = memberId →
      s.device.Answered parcel 200 → PresentOn s.db ledgerId memberId := by
  have fresh : Present ledgerId memberId (.start db) :=
    ⟨nofun,nofun,fun _ _ _ answered => absurd answered.choose_spec.2 List.not_mem_nil⟩
  have both := path.invariant (fun s => Sound s ∧ Present ledgerId memberId s) ⟨start_sound keys single,fresh⟩
    (fun _ _ _ both taken => ⟨act_sound both.1 taken.2,act_present both.1 both.2 taken.1 taken.2⟩)
  exact both.2.settled

theorem both_present : ∃ s, Runs.Reached (Runs.Guarded (Runs.Acts (System.act plainRuntime)) (Spares plainRuntime 1 "ada")) (.start lesson) s ∧
    s.device.answers = [(0,200),(1,500)] ∧ PresentOn s.db 1 "ada" := by
  obtain ⟨s,traced,looks⟩ := Option.map_eq_some_iff.mp
    (show (Runs.trace (System.act plainRuntime) (Spares plainRuntime 1 "ada") (.start lesson) bothFlush).map
      (fun s => (s.device.sent[0]?,s.device.answers)) = some (some ⟨0,markPresence "token" 1 "ada"⟩,[(0,200),(1,500)]) by decide +kernel)
  obtain ⟨sent,answers⟩ : s.device.sent[0]? = some ⟨0,markPresence "token" 1 "ada"⟩ ∧ s.device.answers = [(0,200),(1,500)] := by
    simpa using looks
  have path := Runs.trace_reached .start traced
  exact ⟨s,path,answers,accepted_present lesson_keys lesson_single path _ rfl rfl ⟨0,sent,by simp [answers]⟩⟩

-- The worker's deletion does not go through, the registrar corrects the mark,
-- and the page sends it once more: the correction is gone.
def workerFirst : List Event :=
  [.mark "token" 1 "ada",.openFlush,.begin 0,.send 0,.arrive 0 ada none,.commit 0,.settle 0 200 false,
    .other (.markAttendance ⟨1,"ada",.absent⟩ (.ok ()) registrar),.openFlush,.begin 1,.send 1,.arrive 1 ada none]

theorem correction_undone : ∃ corrected s, Runs.Reached (Runs.Acts (System.act plainRuntime)) (.start lesson) corrected ∧
    corrected.db.marks = [⟨1,1,"ada",.absent,some "registrar"⟩] ∧ Runs.Acts (System.act plainRuntime) corrected (.commit 1) s ∧
    s.db.marks = [adaPresent] := by
  obtain ⟨corrected,traced,looks⟩ := Option.map_eq_some_iff.mp
    (show (Runs.trace (System.act plainRuntime) (fun _ _ => True) (.start lesson) workerFirst).map
      (fun s => (s.db.marks,(s.act plainRuntime (.commit 1)).map (fun s => s.db.marks))) =
        some ([⟨1,1,"ada",.absent,some "registrar"⟩],some [adaPresent]) by decide +kernel)
  obtain ⟨marks,again⟩ : corrected.db.marks = [⟨1,1,"ada",.absent,some "registrar"⟩] ∧
    (corrected.act plainRuntime (.commit 1)).map (fun s => s.db.marks) = some [adaPresent] := by simpa using looks
  obtain ⟨s,taken,last⟩ := Option.map_eq_some_iff.mp again
  exact ⟨corrected,s,(Runs.trace_reached .start traced).unguard,marks,taken,last⟩

end ChronosLedger.Offline
