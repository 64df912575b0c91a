import ChronosLedger.CalendarReader
import ChronosLedger.TimetableSound

namespace ChronosLedger.CalendarSync
open Replacing

variable {zone : Zone} {db next : Database}

-- What a UID is made of: the date, the code as a reader of the feed has it, and
-- the start in seconds. A day without both its times starts at midnight.
structure SessionName where
  date : Int
  code : Text
  second : Nat
  deriving DecidableEq, Repr

def startSecond (row : DailyLedger) : Nat :=
  match row.timeWindowStart,row.timeWindowEnd with
  | some starts,some _ => starts.val/1000000
  | _,_ => 0

def sessionName (row : DailyLedger) (activity : Activity) : SessionName :=
  ⟨row.targetDate,lineEnds activity.activityCode.toList,startSecond row⟩

def Entry.name (entry : Entry) : SessionName := sessionName entry.row entry.activity

theorem lineEnds_after {before : Text} (plain : Unbroken before) (text : Text) : lineEnds (before ++ text) = before ++ lineEnds text := by
  induction before with
  | nil => rfl
  | cons c rest ih =>
    obtain ⟨carriage,feed⟩ := plain
    have other : c ≠ '\r' := fun same => carriage (by simp [same])
    have lone : Lone c (rest ++ text) := fun both => other both.1
    have tail := ih ⟨fun member => carriage (List.mem_cons_of_mem _ member),fun member => feed (List.mem_cons_of_mem _ member)⟩
    rw [List.cons_append,lineEnds_cons lone,tail]
    simp [lineEnd,other]

theorem lineEnds_before {after : Text} (plain : Unbroken after) (text : Text) : lineEnds (text ++ after) = lineEnds text ++ after := by
  have self : lineEnds after = after := by simpa [lineEnds_nil] using lineEnds_after plain []
  induction text using List.twoStepInduction with
  | nil => exact self
  | singleton c =>
    have lone : Lone c after := fun both => plain.2 (List.mem_of_mem_head? both.2)
    have alone : Lone c [] := by simp [Lone]
    rw [List.singleton_append,lineEnds_cons lone,lineEnds_cons alone,self]
    rfl
  | cons_cons c d rest ih others =>
    by_cases both : c = '\r' ∧ d = '\n'
    · obtain ⟨rfl,rfl⟩ := both
      rw [List.cons_append,List.cons_append,lineEnds_crlf,lineEnds_crlf,ih]
      rfl
    · have lone : Lone c (d :: rest ++ after) := by simpa [Lone] using both
      have lone' : Lone c (d :: rest) := by simpa [Lone] using both
      have tail := others d
      rw [List.cons_append,lineEnds_cons lone,lineEnds_cons lone',tail]
      rfl

theorem digits_length {width n : Nat} (positive : 0 < width) (small : n < 10^width) : (digits width n).toList.length = width :=
  (digits_padded positive small).length

-- Written to a width that holds them, numbers can be told apart.
theorem digits_same {width m n : Nat} (positive : 0 < width) (left : m < 10^width) (right : n < 10^width)
    (same : digits width m = digits width n) : m = n := by
  have one := (digits_padded positive left).value
  have two := (digits_padded positive right).value
  rw [same] at one
  exact one.symm.trans two

theorem joined_same {one two three one' two' three' : Text} (first : one.length = one'.length) (second : two.length = two'.length)
    (same : one ++ two ++ three = one' ++ two' ++ three') : one = one' ∧ two = two' ∧ three = three' := by
  rw [List.append_assoc,List.append_assoc] at same
  obtain ⟨same,rest⟩ := List.append_inj same first
  obtain ⟨same',rest⟩ := List.append_inj rest second
  exact ⟨same,same',rest⟩

-- The date of a UID is eight digits, and says which date.
theorem civil_numbers {day : Int} (low : 1 ≤ day) (high : day ≤ maxOrdinal) :
    ∃ year month dom : Nat, year < 10^4 ∧ month < 10^2 ∧ dom < 10^2 ∧ day = ordinal year month dom ∧
      basicDate day = digits 4 year ++ digits 2 month ++ digits 2 dom := by
  obtain ⟨first,last⟩ := civilYear_bounds low high
  have most := (civil_parts day).dom_le
  obtain ⟨month,dom,same⟩ := civil_parts day
  refine ⟨(civilYear day).toNat,(civilMonth day).toNat,(civilDay day).toNat,by omega,by omega,by omega,?_,?_⟩
  · rw [Int.toNat_of_nonneg (by omega),Int.toNat_of_nonneg (by omega),Int.toNat_of_nonneg (by omega)]
    exact same.symm
  · unfold basicDate
    rw [Int.toNat_of_nonneg (by omega),Int.toNat_of_nonneg (by omega),Int.toNat_of_nonneg (by omega)]

theorem basicDate_length {day : Int} (low : 1 ≤ day) (high : day ≤ maxOrdinal) : (basicDate day).toList.length = 8 := by
  obtain ⟨year,month,dom,few,few',few'',_,same⟩ := civil_numbers low high
  rw [same,String.toList_append,String.toList_append,List.length_append,List.length_append,digits_length (by decide) few,
    digits_length (by decide) few',digits_length (by decide) few'']

theorem basicDate_same {one two : Int} (low : 1 ≤ one) (high : one ≤ maxOrdinal) (low' : 1 ≤ two) (high' : two ≤ maxOrdinal)
    (same : basicDate one = basicDate two) : one = two := by
  obtain ⟨year,month,dom,few,few',few'',day,is⟩ := civil_numbers low high
  obtain ⟨year',month',dom',more,more',more'',day',is'⟩ := civil_numbers low' high'
  have texts := congrArg String.toList same
  rw [is,is'] at texts
  simp only [String.toList_append] at texts
  obtain ⟨years,months,doms⟩ := joined_same (by rw [digits_length (by decide) few,digits_length (by decide) more])
    (by rw [digits_length (by decide) few',digits_length (by decide) more']) texts
  have years := digits_same (by decide) few more (String.toList_injective years)
  have months := digits_same (by decide) few' more' (String.toList_injective months)
  have doms := digits_same (by decide) few'' more'' (String.toList_injective doms)
  rw [day,day',years,months,doms]

def secondText (second : Nat) : String := digits 2 (second/3600 : Nat) ++ digits 2 (second/60%60 : Nat) ++ digits 2 (second%60 : Nat)

theorem startSecond_day (row : DailyLedger) : startSecond row < 86400 := by
  unfold startSecond
  split
  · rename_i starts ends _ _
    have day := starts.isLt
    omega
  · decide

theorem secondText_midnight : secondText 0 = "000000" := by decide +kernel

theorem when_second (zone : Zone) (row : DailyLedger) : (whenLines zone row).2.2 = secondText (startSecond row) := by
  unfold whenLines startSecond
  cases row.timeWindowStart with
  | none => exact secondText_midnight.symm
  | some starts =>
    cases row.timeWindowEnd with
    | none => exact secondText_midnight.symm
    | some ends =>
      change basicTime starts = secondText (starts.val/1000000)
      unfold basicTime secondText
      rw [show starts.val/3600000000 = starts.val/1000000/3600 by omega,show starts.val/60000000%60 = starts.val/1000000/60%60 by omega]

theorem secondText_parts {second : Nat} (day : second < 86400) : second/3600 < 10^2 ∧ second/60%60 < 10^2 ∧ second%60 < 10^2 := by omega

theorem secondText_length {second : Nat} (day : second < 86400) : (secondText second).toList.length = 6 := by
  obtain ⟨few,few',few''⟩ := secondText_parts day
  unfold secondText
  rw [String.toList_append,String.toList_append,List.length_append,List.length_append,digits_length (by decide) few,
    digits_length (by decide) few',digits_length (by decide) few'']

theorem secondText_same {one two : Nat} (day : one < 86400) (day' : two < 86400) (same : secondText one = secondText two) : one = two := by
  obtain ⟨few,few',few''⟩ := secondText_parts day
  obtain ⟨more,more',more''⟩ := secondText_parts day'
  have texts := congrArg String.toList same
  unfold secondText at texts
  simp only [String.toList_append] at texts
  obtain ⟨hours,minutes,seconds⟩ := joined_same (by rw [digits_length (by decide) few,digits_length (by decide) more])
    (by rw [digits_length (by decide) few',digits_length (by decide) more']) texts
  have hours := digits_same (by decide) few more (String.toList_injective hours)
  have minutes := digits_same (by decide) few' more' (String.toList_injective minutes)
  have seconds := digits_same (by decide) few'' more'' (String.toList_injective seconds)
  omega

-- The UID a reader of the feed has.
def SessionName.uid (name : SessionName) : Text :=
  ("slot_" ++ basicDate name.date ++ "_").toList ++ name.code ++ ("_" ++ secondText name.second ++ "@chronos.internal").toList

theorem read_uid (zone : Zone) (entry : Entry) : lineEnds (uid zone entry).toList = entry.name.uid := by
  have opens : Unbroken ("slot_" ++ basicDate entry.row.targetDate ++ "_").toList :=
    .join (.join (by simp [Unbroken]) (basicDate_unbroken _)) (by simp [Unbroken])
  have closes : Unbroken ("_" ++ secondText (startSecond entry.row) ++ "@chronos.internal").toList :=
    .join (.join (by simp [Unbroken]) (.join (.join (digits_unbroken _ _) (digits_unbroken _ _)) (digits_unbroken _ _))) (by simp [Unbroken])
  have parts : (uid zone entry).toList = ("slot_" ++ basicDate entry.row.targetDate ++ "_").toList ++ (entry.activity.activityCode.toList ++
      ("_" ++ secondText (startSecond entry.row) ++ "@chronos.internal").toList) := by
    unfold uid
    rw [when_second]
    simp only [String.toList_append,List.append_assoc]
  rw [parts,lineEnds_after opens,lineEnds_before closes,← List.append_assoc]
  rfl

structure SessionName.Valid (name : SessionName) : Prop where
  low : 1 ≤ name.date
  high : name.date ≤ maxOrdinal
  second : name.second < 86400

theorem SessionName.opens_length {name : SessionName} (valid : name.Valid) : ("slot_" ++ basicDate name.date ++ "_").toList.length = 14 := by
  rw [String.toList_append,String.toList_append,List.length_append,List.length_append,basicDate_length valid.low valid.high]
  rfl

theorem SessionName.closes_length {name : SessionName} (valid : name.Valid) :
    ("_" ++ secondText name.second ++ "@chronos.internal").toList.length = 24 := by
  rw [String.toList_append,String.toList_append,List.length_append,List.length_append,secondText_length valid.second]
  rfl

-- Nothing of the name is lost: the code stands between two texts of fixed length.
theorem SessionName.uid_same {one two : SessionName} (left : one.Valid) (right : two.Valid) : one.uid = two.uid ↔ one = two := by
  constructor
  · intro same
    unfold SessionName.uid at same
    obtain ⟨front,closes⟩ := List.append_inj' same (by rw [closes_length left,closes_length right])
    obtain ⟨opens,codes⟩ := List.append_inj front (by rw [opens_length left,opens_length right])
    simp only [String.toList_append,List.append_assoc,List.append_cancel_left_eq,List.append_cancel_right_eq] at opens closes
    have dates := basicDate_same left.low left.high right.low right.high (String.toList_injective opens)
    have seconds := secondText_same left.second right.second (String.toList_injective closes)
    cases one
    cases two
    exact SessionName.mk.injEq .. ▸ ⟨dates,codes,seconds⟩
  · rintro rfl
    rfl

-- The UIDs of a feed as a reader finds them, one for each event.
def feedUids (text : Text) : List Text := (values "UID" (split crlf (unfoldLines text))).map unescape

theorem feedUids_response (zone : Zone) (fullName : String) (writtenAt : Int) (entries : List Entry) :
    feedUids (response zone fullName writtenAt entries) = entries.map (fun entry => entry.name.uid) := by
  have read := ((feed_reads_back zone).1 fullName writtenAt entries).texts ("UID",uid zone) (by simp)
  unfold feedUids
  rw [read]
  exact List.map_congr_left (fun entry _ => read_uid zone entry)

-- No two of the days shown have one name.
def ToldApart (entries : List Entry) : Prop := (entries.map Entry.name).Nodup

instance (entries : List Entry) : Decidable (ToldApart entries) := inferInstanceAs (Decidable (List.Nodup _))

theorem uids_apart {entries : List Entry} (valid : ∀ entry ∈ entries, entry.name.Valid) :
    (entries.map (fun entry => entry.name.uid)).Nodup ↔ ToldApart entries := by
  unfold ToldApart
  rw [List.Nodup,List.Nodup,List.pairwise_map,List.pairwise_map]
  refine List.Pairwise.iff_of_mem (fun {a b} left right => ?_)
  exact not_congr (SessionName.uid_same (valid a left) (valid b right))

-- The dates a feed asks for are dates.
def Dated (today : Int) : Prop := 1 ≤ today-7 ∧ today+30 ≤ maxOrdinal

theorem shown_valid {today : Int} (dated : Dated today) {user : User} {entry : Entry} (member : entry ∈ entriesFor db today user) :
    entry.name.Valid := by
  obtain ⟨row,listed,made⟩ := List.mem_filterMap.mp member
  obtain ⟨activity,_,rfl⟩ := Option.map_eq_some_iff.mp made
  have inside := (List.mem_filter.mp listed).2
  simp only [shown,Bool.and_eq_true,decide_eq_true_eq] at inside
  unfold Dated at dated
  exact ⟨by change 1 ≤ row.targetDate; omega,by change row.targetDate ≤ maxOrdinal; omega,startSecond_day row⟩

theorem feed_told {today : Int} (dated : Dated today) (zone : Zone) (user : User) (writtenAt : Int) :
    (feedUids (response zone user.fullName writtenAt (entriesFor db today user))).Nodup ↔ ToldApart (entriesFor db today user) := by
  rw [feedUids_response]
  exact uids_apart (fun entry member => shown_valid dated member)

-- The name of a day in a state, if its activity is there.
def nameIn (db : Database) (row : DailyLedger) : Option SessionName :=
  (db.activities.find? (fun activity => activity.id = row.activityId)).map (sessionName row)

-- No name is two days'.
def NamedApart (db : Database) : Prop :=
  ∀ one ∈ db.ledger, ∀ two ∈ db.ledger, one.id ≠ two.id → ∀ name ∈ nameIn db one, nameIn db two ≠ some name

-- A day that stands under its number and its name in an earlier state.
def Keeps (db next : Database) (row : DailyLedger) : Prop := ∃ old ∈ db.ledger, old.id = row.id ∧ nameIn db old = nameIn next row

-- A step that writes a day, or moves one to another hour, gives it a name that
-- no other day has.
def NewNames (rt : Runtime) (db : Database) (op : Operation) : Prop :=
  ∀ row ∈ (perform rt db op).ledger, Keeps db (perform rt db op) row ∨
    ∀ other ∈ (perform rt db op).ledger, other.id ≠ row.id → ∀ name ∈ nameIn (perform rt db op) row,
      nameIn (perform rt db op) other ≠ some name

instance (db next : Database) (row : DailyLedger) : Decidable (Keeps db next row) := by
  unfold Keeps
  infer_instance

instance (rt : Runtime) : DecidableRel (NewNames rt) := fun db op => by
  unfold NewNames
  infer_instance

theorem NamedApart.perform {rt : Runtime} {op : Operation} (apart : NamedApart db) (fresh : NewNames rt db op) :
    NamedApart (perform rt db op) := by
  intro one left two right distinct name named named'
  rcases fresh one left with ⟨old,stored,same,kept⟩ | alone
  · rcases fresh two right with ⟨old',stored',same',kept'⟩ | alone
    · refine apart old stored old' stored' (fun equal => distinct (same.symm.trans (equal.trans same'))) name ?_ ?_
      · rw [kept]
        exact named
      · rw [kept',named']
    · exact alone one left distinct name named' named
  · exact alone two right (Ne.symm distinct) name named named'

theorem NamedApart.told (apart : NamedApart db) (days : (db.ledger.map DailyLedger.id).Nodup) (today : Int) (user : User) :
    ToldApart (entriesFor db today user) := by
  unfold ToldApart entriesFor
  rw [List.Nodup,List.pairwise_map]
  have different : (db.ledger.filter (shown db today user)).Pairwise (fun one two => one.id ≠ two.id) :=
    (List.pairwise_map.mp days).filter _
  refine List.pairwise_filterMap.mpr (different.imp_of_mem (fun {one two} left right distinct => ?_))
  intro a made b made' same
  obtain ⟨activity,there,rfl⟩ := Option.map_eq_some_iff.mp made
  obtain ⟨activity',there',rfl⟩ := Option.map_eq_some_iff.mp made'
  refine apart one (List.mem_filter.mp left).1 two (List.mem_filter.mp right).1 distinct (sessionName one activity) ?_ ?_
  · unfold nameIn
    rw [there]
    rfl
  · unfold nameIn
    rw [there']
    exact congrArg some same.symm

theorem named_apart_reached {rt : Runtime} {start : Database} (empty : EmptySchedule start)
    (path : Runs.Reached (Runs.Guarded (Performs rt) (NewNames rt)) start db) : NamedApart db := by
  refine path.invariant NamedApart ?_ ?_
  · intro one stored
    rw [empty.ledger] at stored
    cases stored
  · intro before op after apart taken
    have now : after = perform rt before op := taken.2
    subst now
    exact apart.perform taken.1

-- In any state the UIDs of a feed are as different as the names of its days; and
-- in a run whose steps name days afresh they are all different in every feed.
theorem feed_uids_differ (rt : Runtime) (zone : Zone) :
    (∀ db today user writtenAt, Dated today →
      ((feedUids (response zone user.fullName writtenAt (entriesFor db today user))).Nodup ↔ ToldApart (entriesFor db today user))) ∧
    ∀ start db, EmptySchedule start → (start.resources.map Resource.id).Nodup → (start.activities.map Activity.id).Nodup →
      Runs.Reached (Runs.Guarded (Performs rt) (NewNames rt)) start db →
        ∀ feedTokens now feedToken text, Dated (dateOf (zone.localOf now)) →
          streamIcalendarFeed db feedTokens zone now feedToken = .ok text → (feedUids text).Nodup := by
  refine ⟨fun db today user writtenAt dated => feed_told dated zone user writtenAt,?_⟩
  intro start db empty resources activities path feedTokens now feedToken text dated streamed
  have keys := (run_sound (empty_sound empty resources activities) path.unguard).order
  rcases (feed_reads_back zone).2 db feedTokens now feedToken with refused | ⟨user,_,answered⟩
  · rw [refused] at streamed
    cases streamed
  · rw [answered] at streamed
    cases streamed
    exact (feed_told dated zone user now).mpr ((named_apart_reached empty path).told keys.days _ user)

-- A lecture with two groups, each in its room, led by one person.
def groups (start start' : Time) (proper : start ≠ clock 12 0) (proper' : start' ≠ clock 12 0) : List Operation :=
  [.createCycle ⟨"term",90,130,true,autumn_bounds⟩ registrar,.createActivity ⟨"MATH","Mathematics","SCI",1⟩ registrar,
    .createMasterSlot ⟨"FREQ=DAILY",some 100,start,clock 12 0,1,some "registrar","A",Ne.symm proper⟩ registrar,
    .createMasterSlot ⟨"FREQ=DAILY",some 100,start',clock 12 0,1,some "registrar","B",Ne.symm proper'⟩ registrar]

def greenwich : Zone := ⟨"Etc/UTC",0,[],trivial,by decide⟩

theorem feed_uids_differ_groups :
    (feedUids (response greenwich registrar.fullName 0 (entriesFor (performAll plainRuntime (staffed 100)
      (groups (clock 9 0) (clock 10 0) (by decide) (by decide))) 100 registrar))).Nodup ∧
    ∀ feedTokens now feedToken text, Dated (dateOf (greenwich.localOf now)) →
      streamIcalendarFeed (performAll plainRuntime (staffed 100) (groups (clock 9 0) (clock 10 0) (by decide) (by decide)))
        feedTokens greenwich now feedToken = .ok text → (feedUids text).Nodup := by
  obtain ⟨state,run⟩ := feed_uids_differ plainRuntime greenwich
  refine ⟨(state _ 100 registrar 0 ⟨by decide,by decide⟩).mpr (by decide +kernel),?_⟩
  exact run (staffed 100) _ (staffed_empty 100) (by decide) (by decide)
    (performAll_admitted plainRuntime (NewNames plainRuntime) (staffed 100) _ (by decide +kernel))

-- Both groups meet at nine, and a calendar client takes them for one class.
theorem feed_uids_shared :
    ∃ db, EmptySchedule (staffed 100) ∧ Runs.Reached (Performs plainRuntime) (staffed 100) db ∧ db.ledger.map DailyLedger.id = [1,2] ∧
      (streamIcalendarFeed db [("registrar","t")] greenwich (midnight 100) "t").toOption.map feedUids =
        some (List.replicate 2 "slot_00010411_MATH_090000@chronos.internal".toList) := by
  refine ⟨_,staffed_empty 100,performAll_reached plainRuntime (staffed 100)
    (groups (clock 9 0) (clock 9 0) (by decide) (by decide)),?_,?_⟩
  · decide +kernel
  · decide +kernel

end ChronosLedger.CalendarSync
