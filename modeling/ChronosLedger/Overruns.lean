import ChronosLedger.GuestVisits

namespace ChronosLedger.GuestVisits

variable {settings : Settings} {s next : State} {flight : InFlight} {sweep : Sweep} {row : Visit} {now : Int} {notices : List Notice}
  {notice : Notice} {id : Nat} {ends : Int}

-- Somebody has been sent a notice about this end of a visit.
def Told (notices : List Notice) (id : Nat) (ends : Int) : Prop :=
  ∃ notice ∈ notices, notice.transactionReference = id ∧ notice.visitExpiresAt = ends

instance (notices : List Notice) (id : Nat) (ends : Int) : Decidable (Told notices id ends) := inferInstanceAs (Decidable (∃ _ ∈ _, _))

theorem Told.more (told : Told notices id ends) (notice : Notice) : Told (notices ++ [notice]) id ends := by
  obtain ⟨one,sent,about⟩ := told
  exact ⟨one,List.mem_append_left _ sent,about⟩

theorem told_snoc : Told (notices ++ [notice]) id ends ↔
    Told notices id ends ∨ notice.transactionReference = id ∧ notice.visitExpiresAt = ends := by
  simp [Told,or_and_right,exists_or]

-- Where no sweep is on its way, the next one reads exactly the approved visits
-- that are over and whose end nobody has been told about.
def Settles (s : State) : Prop := s.sweeps = [] → ∀ row ∈ s.rows, row ∈ overdue s.clock s.rows ↔
  row.handshakeStatus = .verifiedApproved ∧ ∃ ends ∈ row.visitExpiresAt, ends ≤ s.clock ∧ ¬ Told s.notices row.id ends

-- A request commits to a visit that no sweep has told about since the request read
-- it, nor stamped if it read it unstamped; and a sweep stamps visits that still
-- have the end it read.
def Apart (s : State) : Op → Prop
  | .finish position _ => ∀ flight ∈ s.requests[position]?, (∀ notice ∈ s.notices.drop flight.sent, notice.transactionReference ≠ flight.entry.id) ∧
      (flight.entry.overstayNotifiedAt = none → ∀ row ∈ s.rows, row.id = flight.entry.id → row.overstayNotifiedAt = none)
  | .close position => ∀ sweep ∈ s.sweeps[position]?, ∀ entry ∈ sweep.entries, ∀ row ∈ s.rows, row.id = entry.id →
      row.visitExpiresAt = entry.visitExpiresAt
  | _ => True

-- A sweep on its way has told, or will tell, about the end of each of its entries.
structure Sweeping (s : State) (sweep : Sweep) : Prop where
  clock : sweep.now ≤ s.clock
  entries : ∀ entry ∈ sweep.entries, entry.overstayNotifiedAt = none ∧ ∃ ends, entry.visitExpiresAt = some ends ∧ ends ≤ sweep.now ∧
    (Told s.notices entry.id ends ∨ Told sweep.unsent entry.id ends)
  unsent : ∀ notice ∈ sweep.unsent, ∃ entry ∈ sweep.entries, entry.id = notice.transactionReference ∧
    entry.visitExpiresAt = some notice.visitExpiresAt

-- A request on its way: unless its visit was announced since, the end is the one
-- it read or one that nobody has been told about.
structure Flying (s : State) (flight : InFlight) : Prop where
  clock : flight.readAt ≤ s.clock
  sent : flight.sent ≤ s.notices.length
  before : ∀ notice ∈ s.notices.take flight.sent, notice.visitExpiresAt ≤ flight.readAt
  since : (∀ notice ∈ s.notices.drop flight.sent, notice.transactionReference ≠ flight.entry.id) → ∀ row ∈ s.rows, row.id = flight.entry.id →
    row.visitExpiresAt = flight.entry.visitExpiresAt ∨ ∀ ends ∈ row.visitExpiresAt, ¬ Told s.notices row.id ends

def Covered (s : State) (id : Nat) (ends : Int) : Prop :=
  ∃ sweep ∈ s.sweeps, ∃ entry ∈ sweep.entries, entry.id = id ∧ entry.visitExpiresAt = some ends

structure Kept (s : State) : Prop where
  keys : (s.rows.map Visit.id).Nodup
  told : ∀ row ∈ s.rows, row.overstayNotifiedAt ≠ none → ∀ ends ∈ row.visitExpiresAt, Told s.notices row.id ends
  marked : ∀ row ∈ s.rows, ∀ ends ∈ row.visitExpiresAt, Told s.notices row.id ends → row.overstayNotifiedAt ≠ none ∨ Covered s row.id ends
  past : ∀ notice ∈ s.notices, notice.visitExpiresAt ≤ s.clock
  sweeps : ∀ sweep ∈ s.sweeps, Sweeping s sweep
  flights : ∀ flight ∈ s.requests, Flying s flight

theorem Kept.settles (kept : Kept s) : Settles s := by
  intro none row there
  have covered : ∀ ends, ¬ Covered s row.id ends := by
    intro ends ⟨sweep,listed,_⟩
    rw [none] at listed
    cases listed
  unfold overdue
  simp only [List.mem_filter,there,true_and,isOverdue,Bool.and_eq_true,decide_eq_true_eq,Option.any_eq_true,Option.isNone_iff_eq_none]
  constructor
  · intro ⟨⟨approved,ends,line,past⟩,unstamped⟩
    refine ⟨approved,ends,line,past,?_⟩
    intro told
    rcases kept.marked row there ends line told with stamp | cover
    · exact stamp unstamped
    · exact covered ends cover
  · intro ⟨approved,ends,line,past,untold⟩
    refine ⟨⟨approved,ends,line,past⟩,?_⟩
    by_contra stamp
    exact untold (kept.told row there stamp ends line)

theorem Kept.tick (kept : Kept s) {later : Int} (forward : s.clock ≤ later) : Kept {s with clock := later} :=
  ⟨kept.keys,kept.told,kept.marked,fun notice sent => le_trans (kept.past notice sent) forward,
    fun sweep listed => ⟨le_trans (kept.sweeps sweep listed).clock forward,(kept.sweeps sweep listed).entries,(kept.sweeps sweep listed).unsent⟩,
    fun flight listed => ⟨le_trans (kept.flights flight listed).clock forward,(kept.flights flight listed).sent,
      (kept.flights flight listed).before,(kept.flights flight listed).since⟩⟩

theorem read_there {users : List User} {rows : List Visit} {currentUser : User} {request : Request} {entry : Visit}
    (found_ : read settings users rows currentUser request = .ok entry) : entry ∈ rows := by
  have looked : ∀ entryId, entryFor settings users rows currentUser entryId = .ok entry → entry ∈ rows := by
    intro entryId found_
    unfold entryFor at found_
    split at found_
    · rename_i there
      cases found_
      exact List.mem_of_find?_eq_some there
    · cases found_
  cases request with
  | decide entryId payload => exact looked entryId found_
  | extend entryId payload =>
    simp only [read] at found_
    split at found_
    · cases found_
    · split at found_
      · cases found_
      · cases known : entryFor settings users rows currentUser entryId with
        | error problem => simp [known] at found_
        | ok other =>
          simp only [known] at found_
          split at found_
          · cases found_
          · cases found_
            exact looked entryId known

theorem Kept.begin (kept : Kept s) {currentUser : User} {request : Request} {entry : Visit} (there : entry ∈ s.rows) :
    Kept {s with requests := s.requests ++ [⟨currentUser,request,entry,s.clock,s.notices.length⟩]} := by
  refine ⟨kept.keys,kept.told,kept.marked,kept.past,
    fun sweep listed => ⟨(kept.sweeps sweep listed).clock,(kept.sweeps sweep listed).entries,(kept.sweeps sweep listed).unsent⟩,?_⟩
  intro flight listed
  rcases List.mem_append.mp listed with old | new
  · exact ⟨(kept.flights flight old).clock,(kept.flights flight old).sent,
      (kept.flights flight old).before,(kept.flights flight old).since⟩
  · cases List.mem_singleton.mp new
    refine ⟨le_refl _,le_refl _,?_,?_⟩
    · intro notice sent
      exact kept.past notice (List.mem_of_mem_take sent)
    · intro _ row stored same
      exact .inl (congrArg Visit.visitExpiresAt (List.inj_on_of_nodup_map kept.keys stored there same))

theorem Kept.swept (kept : Kept s) :
    Kept {s with sweeps := s.sweeps ++ [⟨s.clock,overdue s.clock s.rows,(overdue s.clock s.rows).flatMap noticesOf⟩]} := by
  refine ⟨kept.keys,kept.told,?_,kept.past,?_,
    fun flight listed => ⟨(kept.flights flight listed).clock,(kept.flights flight listed).sent,
      (kept.flights flight listed).before,(kept.flights flight listed).since⟩⟩
  · intro row there ends line told
    rcases kept.marked row there ends line told with stamp | ⟨sweep,listed,cover⟩
    · exact .inl stamp
    · exact .inr ⟨sweep,List.mem_append_left _ listed,cover⟩
  · intro sweep listed
    rcases List.mem_append.mp listed with old | new
    · exact ⟨(kept.sweeps sweep old).clock,(kept.sweeps sweep old).entries,(kept.sweeps sweep old).unsent⟩
    · cases List.mem_singleton.mp new
      refine ⟨le_refl _,?_,?_⟩
      · intro entry read
        obtain ⟨_,late⟩ := List.mem_filter.mp read
        simp only [isOverdue,Bool.and_eq_true,Option.any_eq_true,decide_eq_true_eq,Option.isNone_iff_eq_none] at late
        obtain ⟨⟨_,ends,line,past⟩,unstamped⟩ := late
        refine ⟨unstamped,ends,line,past,.inr ⟨⟨entry.targetStaffId,entry.id,entry.guestName,ends⟩,?_,rfl,rfl⟩⟩
        exact List.mem_flatMap.mpr ⟨entry,read,by simp [noticesOf,line,recipients]⟩
      · intro notice unsent
        obtain ⟨entry,read,made⟩ := List.mem_flatMap.mp unsent
        unfold noticesOf at made
        cases line : entry.visitExpiresAt with
        | none => simp [line] at made
        | some ends =>
          simp only [line] at made
          obtain ⟨recipient,_,rfl⟩ := List.mem_map.mp made
          exact ⟨entry,read,rfl,line⟩

theorem mem_set_cases {α : Type} {xs : List α} {position : Nat} {x y : α} (listed : x ∈ xs.set position y) : x ∈ xs ∨ x = y :=
  (List.mem_or_eq_of_mem_set listed)

-- A changed place keeps what is said of every other, and of it if it is said of
-- what it changed to.
theorem covered_set {xs : List Sweep} {position : Nat} {old : Sweep} (new : Sweep) (here : xs[position]? = some old) (same : new.entries = old.entries)
    {other : Sweep} (listed : other ∈ xs) : ∃ sweep ∈ xs.set position new, sweep.entries = other.entries := by
  induction xs generalizing position with
  | nil => cases listed
  | cons first rest ih =>
    cases position with
    | zero =>
      simp only [List.getElem?_cons_zero,Option.some.injEq] at here
      subst here
      rcases List.mem_cons.mp listed with rfl | later
      · exact ⟨new,by simp,same⟩
      · exact ⟨other,by simp [later],rfl⟩
    | succ position =>
      rcases List.mem_cons.mp listed with rfl | later
      · exact ⟨other,by simp,rfl⟩
      · obtain ⟨sweep,inside,entries⟩ := ih here later
        exact ⟨sweep,List.mem_cons_of_mem _ inside,entries⟩

theorem Kept.sends (kept : Kept s) {position : Nat} {rest : List Notice} (here : s.sweeps[position]? = some sweep)
    (unsent : sweep.unsent = notice :: rest) :
    Kept {s with notices := s.notices ++ [notice],sweeps := s.sweeps.set position {sweep with unsent := rest}} := by
  have listed := List.mem_of_getElem? here
  have going := kept.sweeps sweep listed
  obtain ⟨about,read,same,line⟩ := going.unsent notice (unsent ▸ List.mem_cons_self ..)
  have late : notice.visitExpiresAt ≤ s.clock := by
    obtain ⟨_,ends,line',past,_⟩ := going.entries about read
    cases line.symm.trans line'
    exact le_trans past going.clock
  refine ⟨kept.keys,fun row there stamp ends line => (kept.told row there stamp ends line).more notice,?_,?_,?_,?_⟩
  · intro row there ends line' told
    rcases told_snoc.mp told with old | ⟨ref,at_⟩
    · rcases kept.marked row there ends line' old with stamp | ⟨other,others,entry,inside,cover⟩
      · exact .inl stamp
      · obtain ⟨moved,place,entries⟩ := covered_set {sweep with unsent := rest} here rfl others
        exact .inr ⟨moved,place,entry,entries ▸ inside,cover⟩
    · obtain ⟨moved,place,entries⟩ := covered_set {sweep with unsent := rest} here rfl listed
      exact .inr ⟨moved,place,about,entries ▸ read,same.trans ref,at_ ▸ line⟩
  · intro one sent
    rcases List.mem_append.mp sent with old | new
    · exact kept.past one old
    · cases List.mem_singleton.mp new
      exact late
  · intro other place
    rcases mem_set_cases place with old | rfl
    · have before := kept.sweeps other old
      refine ⟨before.clock,?_,before.unsent⟩
      intro entry inside
      obtain ⟨unstamped,ends,line',past,sent⟩ := before.entries entry inside
      exact ⟨unstamped,ends,line',past,sent.imp_left (fun told => told.more notice)⟩
    · refine ⟨going.clock,?_,fun one left => going.unsent one (unsent ▸ List.mem_cons_of_mem _ left)⟩
      intro entry inside
      obtain ⟨unstamped,ends,line',past,sent⟩ := going.entries entry inside
      refine ⟨unstamped,ends,line',past,?_⟩
      rcases sent with told | ⟨one,left,ref,at_⟩
      · exact .inl (told.more notice)
      · rw [unsent] at left
        rcases List.mem_cons.mp left with rfl | left
        · exact .inl ⟨one,by simp,ref,at_⟩
        · exact .inr ⟨one,left,ref,at_⟩
  · intro flight flying
    have before := kept.flights flight flying
    refine ⟨before.clock,le_trans before.sent (by simp),?_,?_⟩
    · simp only [List.take_append_of_le_length before.sent]
      exact before.before
    · simp only [List.drop_append_of_le_length before.sent]
      intro quiet row there same'
      have quiet' := fun one sent => quiet one (List.mem_append_left _ sent)
      rcases before.since quiet' row there same' with still | untold
      · exact .inl still
      · refine .inr (fun ends line' told => ?_)
        rcases told_snoc.mp told with old | ⟨ref,_⟩
        · exact untold ends line' old
        · exact quiet notice (by simp) (ref.trans same')

theorem mem_eraseIdx_or {α : Type} {xs : List α} {position : Nat} {x y : α} (here : xs[position]? = some y) (listed : x ∈ xs) :
    x = y ∨ x ∈ xs.eraseIdx position := by
  induction xs generalizing position with
  | nil => cases listed
  | cons first rest ih =>
    cases position with
    | zero =>
      simp only [List.getElem?_cons_zero,Option.some.injEq] at here
      subst here
      exact List.mem_cons.mp listed
    | succ position =>
      rcases List.mem_cons.mp listed with rfl | later
      · exact .inr (by simp)
      · exact (ih here later).imp_right (List.mem_cons_of_mem _)

-- A sweep's stamp changes nothing else of a row it read.
theorem stamped_parts (sweep : Sweep) (row : Visit) : (stamped sweep row).id = row.id ∧ (stamped sweep row).visitExpiresAt = row.visitExpiresAt := by
  unfold stamped
  split
  · exact ⟨rfl,by simp [flush,written]⟩
  · exact ⟨rfl,rfl⟩

theorem stamped_cases (unread : ∀ entry ∈ sweep.entries, entry.overstayNotifiedAt = none) (row : Visit) :
    (∃ entry ∈ sweep.entries, entry.id = row.id ∧ (stamped sweep row).overstayNotifiedAt = some sweep.now) ∨
      (∀ entry ∈ sweep.entries, entry.id ≠ row.id) ∧ stamped sweep row = row := by
  unfold stamped
  cases found_ : sweep.entries.find? (fun entry => entry.id = row.id) with
  | none =>
    refine .inr ⟨?_,rfl⟩
    intro entry inside same
    simpa [same] using List.find?_eq_none.mp found_ entry inside
  | some entry =>
    have inside := List.mem_of_find?_eq_some found_
    refine .inl ⟨entry,inside,by simpa using List.find?_some found_,?_⟩
    simp [flush,written,unread entry inside]

theorem Kept.closes (kept : Kept s) {position : Nat} (here : s.sweeps[position]? = some sweep) (done : sweep.unsent = [])
    (apart : Apart s (.close position)) : Kept {s with rows := s.rows.map (stamped sweep),sweeps := s.sweeps.eraseIdx position} := by
  have listed := List.mem_of_getElem? here
  have going := kept.sweeps sweep listed
  have same := apart sweep here
  have unread : ∀ entry ∈ sweep.entries, entry.overstayNotifiedAt = none := fun entry inside => (going.entries entry inside).1
  refine ⟨?_,?_,?_,kept.past,?_,?_⟩
  · have ids : (s.rows.map (stamped sweep)).map Visit.id = s.rows.map Visit.id := by
      rw [List.map_map]
      exact List.map_congr_left (fun row _ => (stamped_parts sweep row).1)
    simpa only [ids] using kept.keys
  · intro made there stamp ends line
    obtain ⟨row,stored,rfl⟩ := List.mem_map.mp there
    rw [(stamped_parts sweep row).2] at line
    rw [(stamped_parts sweep row).1]
    rcases stamped_cases unread row with ⟨entry,inside,id,_⟩ | ⟨_,still⟩
    · obtain ⟨_,ends',line',_,sent⟩ := going.entries entry inside
      rw [same entry inside row stored id.symm,line'] at line
      cases line
      rcases sent with told | ⟨one,left,_⟩
      · exact id ▸ told
      · rw [done] at left
        cases left
    · rw [still] at stamp
      exact kept.told row stored stamp ends line
  · intro made there ends line told
    obtain ⟨row,stored,rfl⟩ := List.mem_map.mp there
    rw [(stamped_parts sweep row).2] at line
    rw [(stamped_parts sweep row).1] at told ⊢
    rcases stamped_cases unread row with ⟨_,_,_,stamp⟩ | ⟨unlisted,still⟩
    · exact .inl (by simp [stamp])
    · rw [still]
      rcases kept.marked row stored ends line told with stamp | ⟨other,others,entry,inside,id,cover⟩
      · exact .inl stamp
      · rcases mem_eraseIdx_or here others with rfl | remains
        · exact absurd id (unlisted entry inside)
        · exact .inr ⟨other,remains,entry,inside,id,cover⟩
  · intro other remains
    have before := kept.sweeps other (List.mem_of_mem_eraseIdx remains)
    exact ⟨before.clock,before.entries,before.unsent⟩
  · intro flight flying
    have before := kept.flights flight flying
    refine ⟨before.clock,before.sent,before.before,?_⟩
    intro quiet made there id
    obtain ⟨row,stored,rfl⟩ := List.mem_map.mp there
    rw [(stamped_parts sweep row).1] at id ⊢
    rw [(stamped_parts sweep row).2]
    exact before.since quiet row stored id

-- The end a request gives a visit lies after the moment it counted from.
theorem apply_later {request : Request} {currentUser : User} {entry : Visit}
    (line : (request.apply settings currentUser now entry).visitExpiresAt = some ends) : now < ends := by
  cases request with
  | decide entryId payload =>
    simp only [Request.apply,decided] at line
    split at line
    · rename_i approved
      cases line
      have := approved.2
      simp only [minutesLong,Int.ofNat_eq_natCast]
      omega
    · cases line
  | extend entryId payload =>
    simp only [Request.apply,extended,Option.map_eq_some_iff] at line
    obtain ⟨ends',_,rfl⟩ := line
    have := payload.positive
    simp only [minutesLong,Int.ofNat_eq_natCast]
    omega

theorem apply_unstamped (request : Request) (currentUser : User) (entry : Visit) :
    (request.apply settings currentUser now entry).overstayNotifiedAt = none := by
  cases request <;> rfl

-- A request that commits in its turn leaves its visit unstamped, with an end that
-- nobody has been told about.
theorem finish_untold (kept : Kept s) {position : Nat} (here : s.requests[position]? = some flight)
    (apart : Apart s (.finish position now)) (later : flight.readAt ≤ now) (stored : row ∈ s.rows) (same : row.id = flight.entry.id) :
    let made := flush flight.entry (flight.request.apply settings flight.currentUser now flight.entry) row
    made.overstayNotifiedAt = none ∧ ∀ ends ∈ made.visitExpiresAt, ¬ Told s.notices row.id ends := by
  have flying := kept.flights flight (List.mem_of_getElem? here)
  obtain ⟨quiet,stamp⟩ := apart flight here
  have fresh : ∀ ends, (flight.request.apply settings flight.currentUser now flight.entry).visitExpiresAt = some ends →
      ¬ Told s.notices row.id ends := by
    intro ends line ⟨notice,sent,ref,at_⟩
    have after := apply_later line
    rw [← List.take_append_drop flight.sent s.notices] at sent
    rcases List.mem_append.mp sent with old | new
    · have := flying.before notice old
      omega
    · exact quiet notice new (ref.trans same)
  refine ⟨?_,?_⟩
  · simp only [flush,written,apply_unstamped]
    split
    · rename_i unread
      exact stamp unread.symm row stored same
    · rfl
  · intro ends line
    simp only [flush,written] at line
    split at line
    · rename_i unchanged
      rcases flying.since quiet row stored same with still | untold
      · exact fresh ends (unchanged.trans (still.symm.trans line))
      · exact untold ends line
    · exact fresh ends line

theorem Kept.finishes (kept : Kept s) {position : Nat} (here : s.requests[position]? = some flight) (apart : Apart s (.finish position now))
    (later : flight.readAt ≤ now) : Kept {s with rows := applyTo s.rows flight settings now,requests := s.requests.eraseIdx position} := by
  have cases_ : ∀ made ∈ applyTo s.rows flight settings now, made ∈ s.rows ∨
      made.overstayNotifiedAt = none ∧ ∀ ends ∈ made.visitExpiresAt, ¬ Told s.notices made.id ends := by
    intro made there
    obtain ⟨row,stored,rfl⟩ := List.mem_map.mp there
    by_cases same : row.id = flight.entry.id
    · rw [if_pos same]
      exact .inr (finish_untold kept here apart later stored same)
    · rw [if_neg same]
      exact .inl stored
  refine ⟨?_,?_,?_,kept.past,?_,?_⟩
  · have ids : (applyTo s.rows flight settings now).map Visit.id = s.rows.map Visit.id := by
      unfold applyTo
      rw [List.map_map]
      apply List.map_congr_left
      intro row _
      simp only [Function.comp_apply]
      split <;> rfl
    simpa only [ids] using kept.keys
  · intro made there stamp ends line
    rcases cases_ made there with stored | ⟨unstamped,_⟩
    · exact kept.told made stored stamp ends line
    · exact absurd unstamped stamp
  · intro made there ends line told
    rcases cases_ made there with stored | ⟨_,untold⟩
    · exact kept.marked made stored ends line told
    · exact absurd told (untold ends line)
  · intro sweep listed
    exact ⟨(kept.sweeps sweep listed).clock,(kept.sweeps sweep listed).entries,(kept.sweeps sweep listed).unsent⟩
  · intro other remains
    have before := kept.flights other (List.mem_of_mem_eraseIdx remains)
    refine ⟨before.clock,before.sent,before.before,?_⟩
    intro quiet made there id
    rcases cases_ made there with stored | ⟨_,untold⟩
    · exact before.since quiet made stored id
    · exact .inr untold

theorem Kept.steps (kept : Kept s) {op : Op} (apart : Apart s op) (taken : Steps settings s op next) : Kept next := by
  change step settings s op = some next at taken
  cases op with
  | tick later =>
    simp only [step] at taken
    split at taken
    · rename_i forward
      cases taken
      exact kept.tick forward
    · cases taken
  | begin currentUser request =>
    simp only [step] at taken
    cases found_ : read settings s.users s.rows currentUser request with
    | error problem =>
      rw [found_] at taken
      cases taken
      exact kept
    | ok entry =>
      rw [found_] at taken
      cases taken
      exact kept.begin (read_there found_)
  | finish position now =>
    simp only [step] at taken
    cases here : s.requests[position]? with
    | none => simp [here] at taken
    | some flight =>
      simp only [here] at taken
      split at taken
      · rename_i window
        cases taken
        exact kept.finishes here apart window.1
      · cases taken
  | sweep =>
    cases taken
    exact kept.swept
  | send position =>
    simp only [step] at taken
    cases here : s.sweeps[position]? with
    | none => simp [here] at taken
    | some sweep =>
      simp only [here] at taken
      cases unsent : sweep.unsent with
      | nil => simp [unsent] at taken
      | cons notice rest =>
        simp only [unsent] at taken
        cases taken
        exact kept.sends here unsent
  | close position =>
    simp only [step] at taken
    cases here : s.sweeps[position]? with
    | none => simp [here] at taken
    | some sweep =>
      simp only [here] at taken
      split at taken
      · rename_i done
        cases taken
        exact kept.closes here done apart
      · cases taken

-- Nothing on its way and nothing told yet, as when the table is new.
structure Untold (s : State) : Prop where
  keys : (s.rows.map Visit.id).Nodup
  unstamped : ∀ row ∈ s.rows, row.overstayNotifiedAt = none
  notices : s.notices = []
  requests : s.requests = []
  sweeps : s.sweeps = []

theorem Untold.kept (untold : Untold s) : Kept s := by
  have none : ∀ id ends, ¬ Told s.notices id ends := by
    intro id ends ⟨notice,sent,_⟩
    rw [untold.notices] at sent
    cases sent
  refine ⟨untold.keys,?_,fun row _ ends _ told => absurd told (none row.id ends),?_,?_,?_⟩
  · intro row there stamp
    exact absurd (untold.unstamped row there) stamp
  · intro notice sent
    rw [untold.notices] at sent
    cases sent
  · intro sweep listed
    rw [untold.sweeps] at listed
    cases listed
  · intro flight listed
    rw [untold.requests] at listed
    cases listed

-- While requests and sweeps commit in their turn, every visit that is over is told
-- about once: the sweeps read those nobody was told about, and no others.
theorem overruns_told_once (settings : Settings) (start : State) (untold : Untold start) :
    ∀ s, Runs.Reached (Runs.Guarded (Steps settings) Apart) start s → Settles s := by
  intro s path
  have kept : Kept s := path.invariant Kept untold.kept (fun _ _ _ kept taken => kept.steps taken.1 taken.2)
  exact kept.settles

instance (s : State) (op : Op) : Decidable (Apart s op) := by
  unfold Apart
  split <;> infer_instance

def desk : User := ⟨"desk","Desk","desk@college.test",.orgAdmin,none,none,false⟩

def visitOf (id : Nat) (ends : Int) : Visit := ⟨id,"Guest","desk",.verifiedApproved,some "desk",some ends,none⟩

def lobby : State := ⟨100,[desk],[visitOf 1 50],[],[],[]⟩

def desks : Settings := ⟨true,60,60⟩

theorem lobby_untold : Untold lobby := ⟨by decide,by decide,rfl,rfl,rfl⟩

-- The extension is committed before the sweep reads, and is told about in turn.
theorem second_overrun_told : ∃ s, Runs.trace (step desks) Apart lobby
    [.sweep,.send 0,.close 0,.begin desk (.extend 1 ⟨10,by decide⟩),.finish 0 100,.tick 900000000,.sweep,.send 0,.close 0] = some s ∧
      s.notices.length = 2 ∧ Settles s := by
  have done : ∃ s, Runs.trace (step desks) Apart lobby
      [.sweep,.send 0,.close 0,.begin desk (.extend 1 ⟨10,by decide⟩),.finish 0 100,.tick 900000000,.sweep,.send 0,.close 0] = some s ∧
        s.notices.length = 2 := ⟨_,rfl,by decide⟩
  obtain ⟨s,run,count⟩ := done
  exact ⟨s,run,count,overruns_told_once desks lobby lobby_untold s (Runs.trace_reached .start run)⟩

-- The sweep reads the first end and stamps the second: nobody is told of it.
theorem second_overrun_silent : ¬ ∀ s, Runs.Reached (Steps desks) lobby s → Settles s := by
  intro all
  have done : ∃ s, Runs.trace (step desks) (fun _ _ => True) lobby
      [.sweep,.send 0,.begin desk (.extend 1 ⟨10,by decide⟩),.finish 0 100,.close 0,.tick 900000000] = some s ∧ s.sweeps = [] ∧
        ∃ row ∈ s.rows, row ∉ overdue s.clock s.rows ∧ row.handshakeStatus = .verifiedApproved ∧
          ∃ ends ∈ row.visitExpiresAt, ends ≤ s.clock ∧ ¬ Told s.notices row.id ends := ⟨_,rfl,by decide,by decide⟩
  obtain ⟨s,run,none,row,there,missed,over_⟩ := done
  exact missed ((all s (Runs.trace_reached .start run).unguard none row there).mpr over_)

end ChronosLedger.GuestVisits
