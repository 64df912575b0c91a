import ChronosLedger.DryRun
import ChronosLedger.Operations
import ChronosLedger.BookingAgreement

namespace ChronosLedger

variable {cal : Recurrence} {sha256 strip : String → String} {db : Database} {resource : Resource} {payload : ReservationCreate}
  {key : String} {currentUser : User}

theorem resolve_walks {owners : List (RequirementOwner × Nat)} {window : Window} {used : List Nat} {parent : Option Reservation}
    {requesterId : Option String} {run : Run} (plain : run.assigned = [])
    (walked : walk cal sha256 ⟨db.defaultRequirementEnforcement,parent,requesterId,[]⟩ maxDepth owners window ⟨db,used,[],[],[],[]⟩ = .ok run) :
    resolve cal sha256 db owners window used parent requesterId [] = .ok run :=
  resolve_parts.mpr ⟨walked,by rw [plain]; rfl⟩

theorem resolve_stops {owners : List (RequirementOwner × Nat)} {window : Window} {used : List Nat} {parent : Option Reservation}
    {requesterId : Option String} {refusal : Refusal}
    (walked : walk cal sha256 ⟨db.defaultRequirementEnforcement,parent,requesterId,[]⟩ maxDepth owners window ⟨db,used,[],[],[],[]⟩ =
      .error refusal) :
    resolve cal sha256 db owners window used parent requesterId [] = .error refusal := by
  unfold resolve
  dsimp only
  rw [List.flatMap_nil,walked]
  rfl

-- The booking's own walk, from the table with the booking in it, goes as the dry
-- run says it will.
theorem resolve_foretold {parent : Reservation} {caller : String} (asked : parent.requestedById = some caller) {window : Window}
    (proper : window.finish ≠ window.start) : ∃ dry,
      resolve cal sha256 db [(.resource,parent.resourceId)] window [parent.resourceId] none none [] = .ok dry ∧ dry.db = db ∧
      (walkForecast sha256 parent).Agrees id (Mirrors sha256 parent) dry
        (resolve cal sha256 {db with reservations := db.reservations ++ [parent]} [(.resource,parent.resourceId)] window
          [parent.resourceId] (some parent) (some caller) []) := by
  have begun : Mirrors sha256 parent ⟨db,[parent.resourceId],[],[],[],[]⟩
      ⟨{db with reservations := db.reservations ++ [parent]},[parent.resourceId],[],[],[],[]⟩ :=
    ⟨rfl,rfl,by simp,rfl⟩
  obtain ⟨dry,walked,grown,outcome⟩ := @walk_tells cal sha256 none db.defaultRequirementEnforcement [] _ _ asked maxDepth [(.resource,parent.resourceId)] window proper ⟨db,[parent.resourceId],[],[],[],[]⟩ rfl
  obtain ⟨goes,stops⟩ := outcome _ ⟨by simp [Amenable],by simp⟩ begun
  refine ⟨dry,resolve_walks (grown.2.2.2 rfl) walked,grown.1,fun sound => ?_,fun unsound => ?_⟩
  · obtain ⟨real,ran,mirrors⟩ := goes sound
    unfold realWalker at ran
    rw [asked] at ran
    exact ⟨real,resolve_walks (mirrors.plain.trans (grown.2.2.2 rfl)) ran,mirrors⟩
  · obtain ⟨refusal,ran⟩ := stops unsound
    unfold realWalker at ran
    rw [asked] at ran
    exact ⟨refusal,resolve_stops ran⟩

theorem bookAnew_reused {key print : String} {ref : String} {taken : Reservation} (sent : payload.externalRef = some ref)
    (own : byRef db currentUser.id ref = some taken) :
    bookAnew cal sha256 strip db resource payload key print currentUser = .error (refTaken taken) := by
  unfold bookAnew
  rw [sent,Option.bind_some,own]
  rfl

theorem freeFor_checks (free : freeFor cal db resource payload.asked = true) (single : payload.quantity = 1) :
    bookingChecks cal db resource payload = .ok () := by
  have clear := Option.isNone_iff_eq_none.mp free
  rw [bookingChecks_parts,single]
  unfold problem at clear
  split at clear
  · cases clear
  · cases mode : resource.mode with
    | shared => exact ⟨fun counted => absurd rfl counted,fun pooled => by cases pooled⟩
    | exclusive =>
      simp only [mode] at clear
      split at clear
      · rename_i none
        exact ⟨fun _ => none,fun pooled => by cases pooled⟩
      · cases clear
    | pooled =>
      simp only [mode] at clear
      split at clear
      · cases clear
      · rename_i none
        split at clear
        · cases clear
        · rename_i room
          exact ⟨fun _ => not_not.mp none,fun _ => not_lt.mp room⟩

theorem bookAnew_books {key print : String} (free : freeFor cal db resource payload.asked = true) (single : payload.quantity = 1)
    (plain : payload.assignments = []) (fresh : byKey db currentUser.id key = none)
    (unused : ∀ ref ∈ payload.externalRef, byRef db currentUser.id ref = none) :
    bookAnew cal sha256 strip db resource payload key print currentUser = (do
      let held ← resolve cal sha256 {db with reservations := db.reservations ++
        [reservationRow strip db resource payload key print currentUser]} [(.resource,resource.id)] payload.asked [resource.id]
        (some (reservationRow strip db resource payload key print currentUser)) (some currentUser.id) []
      .ok (held.db,⟨reservationRow strip db resource payload key print currentUser,held.children,held.unmet,false⟩)) := by
  have noRef : payload.externalRef.bind (byRef db currentUser.id) = none := Option.bind_eq_none_iff.mpr unused
  have inserted : insertReservation db (reservationRow strip db resource payload key print currentUser) =
      .ok {db with reservations := db.reservations ++ [reservationRow strip db resource payload key print currentUser]} := by
    refine if_neg ?_
    rintro ⟨other,stored,⟨_,own,equal⟩ | ⟨_,own,some_,equal⟩⟩
    · have none := List.find?_eq_none.mp fresh other stored
      exact none (decide_eq_true ⟨own,equal⟩)
    · obtain ⟨ref,sent⟩ := Option.isSome_iff_exists.mp (equal ▸ some_)
      have none := List.find?_eq_none.mp (unused ref sent) other stored
      exact none (decide_eq_true ⟨own,equal.trans sent⟩)
  unfold bookAnew
  dsimp only
  rw [noRef,freeFor_checks free single,inserted,plain,single]
  rfl

-- What the dry run says of a booking.
structure Foreseen (rt : Runtime) (db : Database) (resourceId : Nat) (payload : ReservationCreate) (key : String) (currentUser : User)
    (dry : Run) : Prop where
  goes : Amenable dry.unmet → ∃ view : BookingView,
    createReservation rt.cal rt.sha256 rt.reading.strip db resourceId payload key currentUser =
      .ok ({db with reservations := db.reservations ++ view.reservation :: view.children},view) ∧
    view.replayed = false ∧ view.unmet = dry.unmet ∧ view.children.map holdingOf = dry.took
  stops : ¬ Amenable dry.unmet → (∃ refusal, createReservation rt.cal rt.sha256 rt.reading.strip db resourceId payload key currentUser =
    .error refusal) ∧ perform rt db (.createReservation resourceId payload key currentUser) = db

-- What the keys of the children are made from: the row the booking would be.
def askedRow (rt : Runtime) (db : Database) (resource : Resource) (payload : ReservationCreate) (key : String) (currentUser : User) :
    Reservation :=
  reservationRow rt.reading.strip db resource payload key (fingerprint rt.sha256 rt.reading.strip resource.id payload) currentUser

theorem createReservation_fresh {rt : Runtime} (known : db.resource? resource.id = some resource)
    (role : currentUser.roleType = .orgAdmin ∨ currentUser.roleType = .unitAdmin)
    (scope : resource.unitCode.isSome → inUnitScope currentUser resource.unitCode = true) (fresh : byKey db currentUser.id key = none) :
    createReservation rt.cal rt.sha256 rt.reading.strip db resource.id payload key currentUser =
      bookAnew rt.cal rt.sha256 rt.reading.strip db resource payload key (fingerprint rt.sha256 rt.reading.strip resource.id payload)
        currentUser := by
  have may : requireRoles [.orgAdmin,.unitAdmin] currentUser = .ok () := ensure_parts.mpr (by simpa using role)
  have within_ : ensureResourceScope currentUser resource = .ok () := by
    unfold ensureResourceScope
    split
    · rename_i unit
      exact ensure_parts.mpr (scope unit)
    · rfl
  unfold createReservation
  rw [may,known]
  dsimp only [bind,Except.bind,found]
  rw [within_,fresh]

theorem booking_refused {rt : Runtime} {resourceId : Nat} {refusal : Refusal}
    (out : createReservation rt.cal rt.sha256 rt.reading.strip db resourceId payload key currentUser = .error refusal) :
    perform rt db (.createReservation resourceId payload key currentUser) = db := by
  have refused : attempt rt db (.createReservation resourceId payload key currentUser) = .error refusal := by
    change stateOf (createReservation rt.cal rt.sha256 rt.reading.strip db resourceId payload key currentUser) = _
    rw [out]
    rfl
  unfold perform
  rw [refused]

-- The SHA-256 of the four texts the bookings below have digested.
def digests : List (String × String) :=
  [("spring-concert","aeea9b544cacc7befd6877d4a2ec09e6f818a07484e102800f1caa16cfa8f449"),
    ("1|0001-04-11|10:00:00|12:00:00|concert","3179eb158bb9259a1f9245dad2d0191b0a9a81d74c606eefd3844acfa4d6d5d6"),
    ("2|0001-04-10|09:00:00|10:00:00|rehearsal","4c5bb2483074b18e1bee69680ac9d5f80f7b71572ecaaad4685b27de2389cd6f"),
    ("3179eb158bb9259a1f9245dad2d0191b0a9a81d74c606eefd3844acfa4d6d5d6|1",
      "f4f9167ecf12e96875e62514dbc64eada239e7daffb151684158669e78b54a09")]

def concertRuntime : Runtime := {plainRuntime with sha256 := fun text => (digests.lookup text).getD ""}

def concertHall : Resource := ⟨1,"HALL","ROOM",none,none,.exclusive,true,exclusive_bare⟩
def stageCrew : Resource := ⟨2,"CREW","CREW",none,none,.exclusive,true,exclusive_bare⟩

-- The hall needs its crew.
def concertStart : Database := {staffed 90 with
  resources := [concertHall,stageCrew],requirements := [⟨1,.resource,1,.named 2,1,0,0,none,one_unit⟩]}

def rehearsal : ReservationCreate := ⟨100,clock 9 0,clock 10 0,"rehearsal",none,none,[],nine_to_ten,unit_by_default⟩
def concert : ReservationCreate := ⟨101,clock 10 0,clock 12 0,"concert",none,none,[],ten_to_noon,unit_by_default⟩

-- A rehearsal of the crew the day before, under a key the caller chose.
def rehearsed (key : String) : Database := performAll concertRuntime concertStart [.createReservation 2 rehearsal key registrar]

def concertDry : Run := ⟨rehearsed "rehearsal-1",[2,1],[],[],[],[⟨2,concert.asked,1⟩]⟩

end ChronosLedger
