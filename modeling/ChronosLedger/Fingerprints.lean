import ChronosLedger.Booking
import ChronosLedger.IsoForms
import ChronosLedger.Library.Joins
import Mathlib.Data.String.Basic

namespace ChronosLedger
open Joins

-- A time of day as a client may send it: with an offset, in minutes, or without.
structure SentTime where
  at_ : Time
  offset : Option Int
  small : ∀ minutes ∈ offset, -1440 < minutes ∧ minutes < 1440
  deriving DecidableEq, Repr

def isoOffset (minutes : Int) : String :=
  (if minutes < 0 then "-" else "+") ++ digits 2 (minutes.natAbs/60 : Nat) ++ ":" ++ digits 2 (minutes.natAbs%60 : Nat)

def SentTime.iso (sent : SentTime) : String := isoTime sent.at_ ++ (sent.offset.map isoOffset).getD ""

-- A time with an offset and one without never equal each other.
def SentTime.equals (one two : SentTime) : Bool :=
  match one.offset,two.offset with
  | none,none => one.at_ = two.at_
  | some m,some n => (one.at_.val : Int)-m*60000000 = two.at_.val-n*60000000
  | _,_ => false

-- What the schema takes, with everything it checks. The assignments are a
-- dictionary: its kinds are distinct.
structure ReservationBody where
  date : Int
  start : SentTime
  finish : SentTime
  purpose : String
  sentQuantity : Option Int
  externalRef : Option String
  assignments : List (String × List Int)
  dated : 1 ≤ date ∧ date ≤ maxOrdinal
  window : finish.equals start = false
  units : ∀ quantity ∈ sentQuantity, 1 ≤ quantity
  purposed : 1 ≤ purpose.length ∧ purpose.length ≤ 200
  referenced : ∀ ref ∈ externalRef, 1 ≤ ref.length ∧ ref.length ≤ 120
  kinds : (assignments.map Prod.fst).Nodup
  deriving DecidableEq, Repr

def entryText (entry : String × List Int) : String := entry.1 ++ ":" ++ String.intercalate "," (entry.2.map toString)

def byKind (assignments : List (String × List Int)) : List (String × List Int) := assignments.insertionSort (fun a b => a.1 ≤ b.1)

def chosenText (assignments : List (String × List Int)) : String := String.intercalate ";" ((byKind assignments).map entryText)

-- The purpose, and after it what was sent besides.
def ReservationBody.texts (strip : String → String) (body : ReservationBody) : List String :=
  [strip body.purpose] ++ body.externalRef.toList ++ body.sentQuantity.toList.map (fun quantity => s!"quantity={quantity}") ++
    (if body.assignments = [] then [] else ["assignments=" ++ chosenText body.assignments])

-- The string that is hashed.
def asked (strip : String → String) (resourceId : Int) (body : ReservationBody) : String :=
  String.intercalate "|" ([toString resourceId,isoDate body.date,body.start.iso,body.finish.iso] ++ body.texts strip)

-- A body of the model's own, which has no offsets and no negative ids.
def ReservationCreate.sent (payload : ReservationCreate) (dated : 1 ≤ payload.date ∧ payload.date ≤ maxOrdinal)
    (purposed : 1 ≤ payload.purpose.length ∧ payload.purpose.length ≤ 200)
    (referenced : ∀ ref ∈ payload.externalRef, 1 ≤ ref.length ∧ ref.length ≤ 120)
    (kinds : (payload.assignments.map Prod.fst).Nodup) : ReservationBody where
  date := payload.date
  start := ⟨payload.start,none,by simp⟩
  finish := ⟨payload.finish,none,by simp⟩
  purpose := payload.purpose
  sentQuantity := payload.sentQuantity.map Int.ofNat
  externalRef := payload.externalRef
  assignments := payload.assignments.map (fun entry => (entry.1,entry.2.map Int.ofNat))
  dated := dated
  window := by simp [SentTime.equals,payload.window]
  units := by
    have units := payload.units
    intro quantity there
    cases sent : payload.sentQuantity with
    | none => simp [sent] at there
    | some n =>
      simp only [sent,Option.map_some,Option.mem_some_iff] at there
      simp only [sent,Option.getD_some] at units
      subst there
      exact Int.ofNat_le.mpr units
  purposed := purposed
  referenced := referenced
  kinds := by simpa [Function.comp_def] using kinds

theorem fingerprint_asked (sha256 strip : String → String) (resourceId : Nat) (payload : ReservationCreate) {dated purposed referenced kinds} :
    fingerprint sha256 strip resourceId payload = sha256 (asked strip resourceId (payload.sent dated purposed referenced kinds)) := by
  have sorted : byKind (payload.assignments.map (fun entry => (entry.1,entry.2.map Int.ofNat))) =
      (payload.assignments.insertionSort (fun a b => a.1 ≤ b.1)).map (fun entry => (entry.1,entry.2.map Int.ofNat)) := by
    apply Eq.symm
    apply List.map_insertionSort
    intro a _ b _
    exact Iff.rfl
  have chosen : chosenText (payload.assignments.map (fun entry => (entry.1,entry.2.map Int.ofNat))) =
      String.intercalate ";" ((payload.assignments.insertionSort (fun a b => a.1 ≤ b.1)).map (fun entry =>
        entry.1 ++ ":" ++ String.intercalate "," (entry.2.map toString))) := by
    unfold chosenText
    rw [sorted,List.map_map]
    congr 1
    apply List.map_congr_left
    intro entry _
    simp only [Function.comp_apply,entryText,List.map_map]
    rfl
  have quantities : (payload.sentQuantity.map Int.ofNat).toList.map (fun quantity => s!"quantity={quantity}") =
      payload.sentQuantity.toList.map (fun quantity => s!"quantity={quantity}") := by
    cases payload.sentQuantity <;> rfl
  unfold fingerprint asked ReservationBody.texts ReservationCreate.sent
  simp only [chosen,quantities,List.map_eq_nil_iff,SentTime.iso,Option.map_none,Option.getD_none,String.append_empty]
  split
  · apply congrArg (fun parts => sha256 (String.intercalate "|" parts))
    simp only [List.append_assoc,List.append_nil]
    rfl
  · apply congrArg (fun parts => sha256 (String.intercalate "|" parts))
    simp only [List.append_assoc]
    rfl

-- The characters of a time of day, and those of a number, a date and an offset
-- as well. The parts are joined by none of them.
def clockwise (c : Char) : Bool := c.isDigit || c = ':' || c = '.'
def numeric (c : Char) : Bool := clockwise c || c = '-' || c = '+'

theorem digits_clockwise (width n : Nat) : ∀ c ∈ (digits width (n : Int)).toList, clockwise c = true := by
  intro c member
  unfold digits at member
  rw [String.toList_append,String.toList_ofList,toString_nat] at member
  rcases List.mem_append.mp member with zero | digit
  · rw [List.eq_of_mem_replicate zero]
    decide
  · have plain := Nat.isDigit_of_mem_toDigits (by decide) (by decide) digit
    simp [clockwise,plain]

theorem digits_numeric (width n : Nat) : ∀ c ∈ (digits width (n : Int)).toList, numeric c = true := by
  intro c member
  simp [numeric,digits_clockwise width n c member]

def signed (c : Char) : Bool := c.isDigit || c = '-'

theorem repr_signed (n : Int) : ∀ c ∈ (toString n).toList, signed c = true := by
  have plain : ∀ (n : Nat), ∀ c ∈ Nat.toDigits 10 n, signed c = true := by
    intro n c digit
    have plain := Nat.isDigit_of_mem_toDigits (by decide) (by decide) digit
    simp [signed,plain]
  intro c member
  cases n with
  | ofNat n =>
    change c ∈ (toString (n : Int)).toList at member
    rw [toString_nat] at member
    exact plain n c member
  | negSucc n =>
    change c ∈ ("-" ++ Nat.repr (n+1)).toList at member
    rw [String.toList_append,Nat.toList_repr] at member
    rcases List.mem_append.mp member with sign | digit
    · rw [List.mem_singleton.mp sign]
      decide
    · exact plain _ c digit

theorem repr_numeric (n : Int) : ∀ c ∈ (toString n).toList, numeric c = true := by
  intro c member
  have plain := repr_signed n c member
  simp only [signed,Bool.or_eq_true,decide_eq_true_eq] at plain
  rcases plain with digit | rfl
  · simp [numeric,clockwise,digit]
  · decide

theorem append_all {p : Char → Bool} {one two : String} (left : ∀ c ∈ one.toList, p c = true) (right : ∀ c ∈ two.toList, p c = true) :
    ∀ c ∈ (one ++ two).toList, p c = true := by
  intro c member
  rw [String.toList_append] at member
  rcases List.mem_append.mp member with here | there
  · exact left c here
  · exact right c there

theorem isoDate_numeric {day : Int} (low : 1 ≤ day) (high : day ≤ maxOrdinal) : ∀ c ∈ (isoDate day).toList, numeric c = true := by
  obtain ⟨month,dom,_⟩ := civil_parts day
  obtain ⟨first,_⟩ := civilYear_bounds low high
  rw [isoDate_civil]
  obtain ⟨y,year⟩ := Int.eq_ofNat_of_zero_le (show 0 ≤ civilYear day by omega)
  obtain ⟨m,month_⟩ := Int.eq_ofNat_of_zero_le (show 0 ≤ civilMonth day by omega)
  obtain ⟨d,dom_⟩ := Int.eq_ofNat_of_zero_le (show 0 ≤ civilDay day by omega)
  rw [year,month_,dom_]
  have hyphen : ∀ c ∈ "-".toList, numeric c = true := List.all_eq_true.mp (by decide)
  apply append_all
  · apply append_all
    · exact append_all (append_all (digits_numeric 4 y) hyphen) (digits_numeric 2 m)
    · exact hyphen
  · exact digits_numeric 2 d

theorem isoTime_clockwise (at_ : Time) : ∀ c ∈ (isoTime at_).toList, clockwise c = true := by
  have colon : ∀ c ∈ ":".toList, clockwise c = true := List.all_eq_true.mp (by decide)
  have point : ∀ c ∈ ".".toList, clockwise c = true := List.all_eq_true.mp (by decide)
  have whole : ∀ c ∈ (digits 2 (at_.val/3600000000 : Nat) ++ ":" ++ digits 2 (at_.val/60000000%60 : Nat) ++ ":" ++
      digits 2 (at_.val/1000000%60 : Nat)).toList, clockwise c = true := by
    apply append_all
    · apply append_all
      · exact append_all (append_all (digits_clockwise 2 _) colon) (digits_clockwise 2 _)
      · exact colon
    · exact digits_clockwise 2 _
  unfold isoTime
  dsimp only
  split
  · exact whole
  · exact append_all (append_all whole point) (digits_clockwise 6 _)

theorem isoOffset_numeric (minutes : Int) : ∀ c ∈ (isoOffset minutes).toList, numeric c = true := by
  have colon : ∀ c ∈ ":".toList, numeric c = true := List.all_eq_true.mp (by decide)
  unfold isoOffset
  apply append_all
  · apply append_all
    · apply append_all
      · split
        · exact List.all_eq_true.mp (by decide)
        · exact List.all_eq_true.mp (by decide)
      · exact digits_numeric 2 _
    · exact colon
  · exact digits_numeric 2 _

theorem SentTime.iso_numeric (sent : SentTime) : ∀ c ∈ sent.iso.toList, numeric c = true := by
  unfold SentTime.iso
  apply append_all
  · intro c member
    simp [numeric,isoTime_clockwise sent.at_ c member]
  · cases sent.offset with
    | none => simp
    | some minutes => exact isoOffset_numeric minutes

-- What is written of a day or a time says which one it is.
theorem isoDate_injective {one two : Int} (left : 1 ≤ one ∧ one ≤ maxOrdinal) (right : 1 ≤ two ∧ two ≤ maxOrdinal)
    (same : isoDate one = isoDate two) : one = two := by
  have read := (isoDate_parts left.1 left.2).2
  rw [same,(isoDate_parts right.1 right.2).2] at read
  exact (Option.some.inj read).symm

theorem readTime_isoTime (at_ : Time) : readTime (isoTime at_).toList = some at_ := by
  by_cases exact_ : at_.val%1000000 = 0
  · obtain ⟨h1,h2,m1,m2,s1,s2,u1,u2,u3,u4,u5,u6,written,hours,minutes,seconds,_⟩ := isoMicros_parts at_
    have whole : (isoTime at_).toList = [h1,h2,':',m1,m2,':',s1,s2] := by
      have long : isoMicros at_ = isoTime at_ ++ "." ++ digits 6 (at_.val%1000000 : Nat) := by
        unfold isoTime isoMicros
        dsimp only
        rw [if_pos exact_]
      have length : (isoTime at_).toList.length = 8 := by
        have all := congrArg List.length written
        have micros : Padded 6 (at_.val%1000000) (digits 6 (at_.val%1000000 : Nat)).toList := digits_padded (by decide) (by omega)
        rw [long,String.toList_append,String.toList_append,List.length_append,List.length_append,micros.length] at all
        simp only [List.length_cons,List.length_nil] at all
        change _+1+6 = _ at all
        omega
      rw [long,String.toList_append,String.toList_append,List.append_assoc] at written
      have front := congrArg (List.take 8) written
      rw [List.take_left' length] at front
      exact front
    rw [whole,readTime]
    simp only [hours,minutes,seconds,Option.bind_eq_bind,Option.bind_some]
    have parts := timeFrom_parts at_
    rw [exact_] at parts
    exact parts
  · have long : isoTime at_ = isoMicros at_ := by
      unfold isoTime isoMicros
      dsimp only
      rw [if_neg exact_]
    rw [long,readTime_isoMicros]

theorem readOffset_isoOffset {minutes : Int} (low : -1440 < minutes) (high : minutes < 1440) :
    readOffset (isoOffset minutes).toList = some (some (minutes*60000000)) := by
  have hours : Padded 2 (minutes.natAbs/60) (digits 2 (minutes.natAbs/60 : Nat)).toList := digits_padded (by decide) (by omega)
  have rest : Padded 2 (minutes.natAbs%60) (digits 2 (minutes.natAbs%60 : Nat)).toList := digits_padded (by decide) (by omega)
  have readHours := hours.field
  have readRest := rest.field
  obtain ⟨h1,h2,writtenHours⟩ := hours.two
  obtain ⟨m1,m2,writtenRest⟩ := rest.two
  rw [writtenHours] at readHours
  rw [writtenRest] at readRest
  have colon : ":".toList = [':'] := rfl
  have written : ∀ sign : Char, (String.singleton sign ++ digits 2 (minutes.natAbs/60 : Nat) ++ ":" ++ digits 2 (minutes.natAbs%60 : Nat)).toList =
      [sign,h1,h2,':',m1,m2] := by
    intro sign
    simp only [String.toList_append,writtenHours,writtenRest,colon,String.toList_singleton]
    rfl
  have small : ((minutes.natAbs/60 : Nat) : Int) < 24 ∧ ((minutes.natAbs%60 : Nat) : Int) < 60 := by omega
  have whole : ((minutes.natAbs/60 : Nat) : Int)*3600000000+((minutes.natAbs%60 : Nat) : Int)*60000000 = (minutes.natAbs : Int)*60000000 := by
    omega
  unfold isoOffset
  by_cases negative : minutes < 0
  · have text : (if minutes < 0 then "-" else "+") = String.singleton '-' := by rw [if_pos negative]; rfl
    rw [text,written '-',readOffset]
    simp only [readHours,readRest,Option.bind_eq_bind,Option.bind_some,small,and_self,if_true,whole]
    have value : -1*((minutes.natAbs : Int)*60000000) = minutes*60000000 := by omega
    rw [value]
  · have text : (if minutes < 0 then "-" else "+") = String.singleton '+' := by rw [if_neg negative]; rfl
    rw [text,written '+',readOffset]
    simp only [readHours,readRest,Option.bind_eq_bind,Option.bind_some,small,and_self,if_true,whole]
    have value : 1*((minutes.natAbs : Int)*60000000) = minutes*60000000 := by omega
    rw [if_neg (by decide),value]

-- A sign ends the time of day, and nothing in it is one.
def readSent (text : List Char) : Option (Time × Option Int) := do
  let at_ ← readTime (text.takeWhile (fun c => !opensOffset c))
  let offset ← readOffset (text.dropWhile (fun c => !opensOffset c))
  some (at_,offset)

theorem readSent_iso (sent : SentTime) : readSent sent.iso.toList = some (sent.at_,sent.offset.map (fun minutes => minutes*60000000)) := by
  have plain : ∀ c ∈ (isoTime sent.at_).toList, (!opensOffset c) = true := by
    intro c member
    have clock := isoTime_clockwise sent.at_ c member
    cases opens : opensOffset c with
    | false => rfl
    | true =>
      unfold opensOffset at opens
      rcases of_decide_eq_true opens with rfl | rfl | rfl <;> cases clock
  unfold readSent SentTime.iso
  rw [String.toList_append,List.takeWhile_append_of_pos plain,List.dropWhile_append_of_pos plain]
  cases offset : sent.offset with
  | none =>
    have none : (Option.map isoOffset none).getD "" = "" := rfl
    simp only [none,String.toList_empty,List.takeWhile_nil,List.dropWhile_nil,List.append_nil,readTime_isoTime,readOffset]
    rfl
  | some minutes =>
    obtain ⟨low,high⟩ := sent.small minutes offset
    have opened : ∃ sign rest, (isoOffset minutes).toList = sign :: rest ∧ opensOffset sign = true := by
      unfold isoOffset
      by_cases negative : minutes < 0
      · rw [if_pos negative]
        simp only [String.toList_append]
        exact ⟨'-',_,rfl,by decide⟩
      · rw [if_neg negative]
        simp only [String.toList_append]
        exact ⟨'+',_,rfl,by decide⟩
    obtain ⟨sign,rest,text,opens⟩ := opened
    have read := readOffset_isoOffset low high
    rw [text] at read
    simp only [Option.map_some,Option.getD_some,text,List.takeWhile_cons,List.dropWhile_cons,opens,Bool.not_true,Bool.false_eq_true,if_false,
      List.append_nil,readTime_isoTime,read,Option.bind_eq_bind,Option.bind_some]

theorem SentTime.iso_injective {one two : SentTime} (same : one.iso = two.iso) : one = two := by
  have read := readSent_iso one
  rw [same,readSent_iso two] at read
  obtain ⟨at_,offset⟩ := Prod.mk.inj (Option.some.inj read)
  obtain ⟨at1,offset1,_⟩ := one
  obtain ⟨at2,offset2,_⟩ := two
  cases at_
  have equal : offset1 = offset2 := by
    cases offset1 <;> cases offset2 <;> simp only [Option.map_some,Option.map_none,Option.some.injEq,reduceCtorEq] at offset
    · rfl
    · exact congrArg some (by omega)
  cases equal
  rfl

-- The separator is the last colon of an entry.
theorem last_colon {one two left right : List Char} (plain : ':' ∉ left) (plain' : ':' ∉ right)
    (same : one ++ ':' :: left = two ++ ':' :: right) : one = two ∧ left = right := by
  have ends : ∀ {front back : List Char}, ':' ∉ back → (front ++ ':' :: back).reverse.takeWhile (fun c => c ≠ ':') = back.reverse := by
    intro front back none
    rw [List.reverse_append,List.reverse_cons,List.append_assoc,List.takeWhile_append_of_pos]
    · simp
    · intro c member
      have there := List.mem_reverse.mp member
      rw [decide_eq_true_eq]
      rintro rfl
      exact none there
  have tails : left.reverse = right.reverse := by
    rw [← @ends one left plain,← @ends two right plain',same]
  have equal : left = right := List.reverse_injective tails
  cases equal
  exact ⟨List.append_cancel_right same,rfl⟩

theorem not_among {p : Char → Bool} {c : Char} (plain : p c = false) {text : List Char} (all : ∀ c ∈ text, p c = true) : c ∉ text := by
  intro there
  rw [all c there] at plain
  cases plain

def idsText (ids : List Int) : String := String.intercalate "," (ids.map toString)

theorem idsText_joined (ids : List Int) : (idsText ids).toList = join ',' (ids.map (fun id => (toString id).toList)) := by
  unfold idsText join
  rw [String.toList_intercalate,List.map_map]
  rfl

theorem repr_full (n : Int) : (toString n).toList ≠ [] := by
  cases n with
  | ofNat n =>
    change (toString (n : Int)).toList ≠ []
    rw [toString_nat]
    exact Nat.toDigits_ne_nil
  | negSucc n =>
    change ("-" ++ Nat.repr (n+1)).toList ≠ []
    simp

theorem repr_injective {one two : Int} (same : (toString one).toList = (toString two).toList) : one = two := by
  have back : ∀ {m n : Nat}, Nat.toDigits 10 m = Nat.toDigits 10 n → m = n := by
    intro m n digits
    rw [← @Nat.ofDigitChars_ten_toDigits m,digits,Nat.ofDigitChars_ten_toDigits]
  have unsigned : ∀ (m n : Nat), Nat.toDigits 10 m ≠ '-' :: Nat.toDigits 10 n := by
    intro m n digits
    have plain := Nat.isDigit_of_mem_toDigits (by decide) (by decide) (digits ▸ List.mem_cons_self : '-' ∈ Nat.toDigits 10 m)
    cases plain
  have whole : ∀ n : Nat, (toString (Int.ofNat n)).toList = Nat.toDigits 10 n := toString_nat
  have negative : ∀ n : Nat, (toString (Int.negSucc n)).toList = '-' :: Nat.toDigits 10 (n+1) := by
    intro n
    change ("-" ++ Nat.repr (n+1)).toList = _
    rw [String.toList_append,Nat.toList_repr]
    rfl
  cases one with
  | ofNat m =>
    cases two with
    | ofNat n =>
      rw [whole,whole] at same
      rw [back same]
    | negSucc n =>
      rw [whole,negative] at same
      exact absurd same (unsigned m _)
  | negSucc m =>
    cases two with
    | ofNat n =>
      rw [negative,whole] at same
      exact absurd same.symm (unsigned n _)
    | negSucc n =>
      rw [negative,negative] at same
      have equal := back (List.cons.inj same).2
      rw [Nat.succ_injective equal]

theorem ids_injective {one two : List Int} (same : (idsText one).toList = (idsText two).toList) : one = two := by
  have plain : ∀ (ids : List Int), ∀ text ∈ ids.map (fun id => (toString id).toList), ',' ∉ text := by
    intro ids text member
    obtain ⟨id,_,rfl⟩ := List.mem_map.mp member
    exact not_among (p := signed) (by decide) (repr_signed id)
  have empty : ∀ {id : Int} {rest : List Int}, (idsText (id :: rest)).toList ≠ [] := by
    intro id rest
    rw [idsText_joined]
    cases rest with
    | nil => simpa [join] using repr_full id
    | cons next rest =>
      rw [List.map_cons,join_cons (by simp)]
      simp
  rw [idsText_joined,idsText_joined] at same
  cases one with
  | nil =>
    cases two with
    | nil => rfl
    | cons id rest =>
      refine absurd ?_ (@empty id rest)
      rw [idsText_joined,← same]
      rfl
  | cons id rest =>
    cases two with
    | nil =>
      refine absurd ?_ (@empty id rest)
      rw [idsText_joined,same]
      rfl
    | cons id' rest' =>
      have split := congrArg (fun text => text.splitOn ',') same
      simp only [join] at split
      rw [List.splitOn_intercalate ',' (plain _) (by simp),List.splitOn_intercalate ',' (plain _) (by simp)] at split
      exact List.map_injective_iff.mpr (fun _ _ => repr_injective) split

theorem entryText_parts (entry : String × List Int) : (entryText entry).toList = entry.1.toList ++ ':' :: (idsText entry.2).toList := by
  unfold entryText idsText
  rw [String.toList_append,String.toList_append,List.append_assoc]
  rfl

theorem ids_plain {c : Char} (plain : signed c = false) (apart : c ≠ ',') (ids : List Int) : c ∉ (idsText ids).toList := by
  rw [idsText_joined]
  induction ids with
  | nil => simp [join]
  | cons id rest ih =>
    have here : c ∉ (toString id).toList := not_among plain (repr_signed id)
    cases rest with
    | nil => simpa [join] using here
    | cons next rest =>
      rw [List.map_cons,join_cons (by simp)]
      simp only [List.mem_append,List.mem_cons,not_or]
      exact ⟨here,apart,ih⟩

theorem entry_injective {one two : String × List Int} (same : (entryText one).toList = (entryText two).toList) : one = two := by
  rw [entryText_parts,entryText_parts] at same
  obtain ⟨kind,ids⟩ := last_colon (ids_plain (by decide) (by decide) one.2) (ids_plain (by decide) (by decide) two.2) same
  exact Prod.ext (String.toList_injective kind) (ids_injective ids)

def bars (text : String) : Nat := text.toList.count '|'

def semicolons (body : ReservationBody) : List Nat := (byKind body.assignments).map (fun entry => entry.1.toList.count ';')

-- What lies between the bars of what was sent, wherever they come from.
def pieces (strip : String → String) (body : ReservationBody) : List (List Char) := cuts '|' ((body.texts strip).map String.toList)

variable {strip : String → String} {resourceId otherId : Int} {one two : ReservationBody}

structure SameRequest (strip : String → String) (resourceId : Int) (one : ReservationBody) (otherId : Int) (two : ReservationBody) : Prop where
  resource : resourceId = otherId
  date : one.date = two.date
  start : one.start = two.start
  finish : one.finish = two.finish
  purpose : strip one.purpose = strip two.purpose
  reference : one.externalRef = two.externalRef
  quantity : one.sentQuantity = two.sentQuantity
  assignments : one.assignments.Perm two.assignments

-- Two requests for one window that read alike from bar to bar, while a bar or a
-- semicolon in a free text of one is a separator in the other.
structure Blurs (strip : String → String) (resourceId : Int) (one : ReservationBody) (otherId : Int) (two : ReservationBody) : Prop where
  resource : resourceId = otherId
  date : one.date = two.date
  start : one.start = two.start
  finish : one.finish = two.finish
  alike : pieces strip one = pieces strip two
  moved : bars (strip one.purpose) ≠ bars (strip two.purpose) ∨ one.externalRef.map bars ≠ two.externalRef.map bars ∨
    semicolons one ≠ semicolons two

theorem asked_joined (strip : String → String) (resourceId : Int) (body : ReservationBody) : (asked strip resourceId body).toList =
    join '|' ((toString resourceId).toList :: (isoDate body.date).toList :: body.start.iso.toList :: body.finish.iso.toList ::
      (body.texts strip).map String.toList) := by
  unfold asked join
  rw [String.toList_intercalate]
  rfl

theorem asked_exact : asked strip resourceId one = asked strip otherId two ↔ resourceId = otherId ∧ one.date = two.date ∧
    one.start = two.start ∧ one.finish = two.finish ∧ pieces strip one = pieces strip two := by
  have cut : ∀ (resourceId : Int) (body : ReservationBody), cuts '|' ((toString resourceId).toList :: (isoDate body.date).toList ::
      body.start.iso.toList :: body.finish.iso.toList :: (body.texts strip).map String.toList) =
      (toString resourceId).toList :: (isoDate body.date).toList :: body.start.iso.toList :: body.finish.iso.toList :: pieces strip body := by
    intro resourceId body
    have dated := isoDate_numeric body.dated.1 body.dated.2
    rw [cuts_cons (not_among (p := numeric) (by decide) (repr_numeric resourceId)),cuts_cons (not_among (p := numeric) (by decide) dated),
      cuts_cons (not_among (p := numeric) (by decide) body.start.iso_numeric),
      cuts_cons (not_among (p := numeric) (by decide) body.finish.iso_numeric)]
    rfl
  have texts : asked strip resourceId one = asked strip otherId two ↔
      (asked strip resourceId one).toList = (asked strip otherId two).toList := ⟨congrArg String.toList,fun same => String.toList_injective same⟩
  rw [texts,asked_joined,asked_joined,join_exact (List.cons_ne_nil _ _) (List.cons_ne_nil _ _),cut,cut]
  simp only [List.cons.injEq]
  constructor
  · intro ⟨resource,date,start,finish,alike⟩
    exact ⟨repr_injective resource,isoDate_injective one.dated two.dated (String.toList_injective date),
      SentTime.iso_injective (String.toList_injective start),SentTime.iso_injective (String.toList_injective finish),alike⟩
  · intro ⟨resource,date,start,finish,alike⟩
    rw [resource,date,start,finish]
    exact ⟨rfl,rfl,rfl,rfl,alike⟩

theorem byKind_kinds (body : ReservationBody) : (byKind body.assignments).map Prod.fst = (body.assignments.map Prod.fst).insertionSort (· ≤ ·) := by
  unfold byKind
  apply List.map_insertionSort
  intro a _ b _
  exact Iff.rfl

theorem semicolons_same (perm : one.assignments.Perm two.assignments) : semicolons one = semicolons two := by
  have kinds : (byKind one.assignments).map Prod.fst = (byKind two.assignments).map Prod.fst := by
    rw [byKind_kinds,byKind_kinds]
    apply List.Perm.eq_of_sortedLE (List.sortedLE_insertionSort) (List.sortedLE_insertionSort)
    apply (List.perm_insertionSort _ _).trans
    apply ((perm.map Prod.fst)).trans
    exact (List.perm_insertionSort _ _).symm
  have counts : ∀ body : ReservationBody, semicolons body = ((byKind body.assignments).map Prod.fst).map (fun kind => kind.toList.count ';') := by
    intro body
    unfold semicolons
    rw [List.map_map]
    rfl
  rw [counts,counts,kinds]

theorem chosen_joined (assignments : List (String × List Int)) :
    (chosenText assignments).toList = join ';' ((byKind assignments).map (fun entry => (entryText entry).toList)) := by
  unfold chosenText join
  rw [String.toList_intercalate,List.map_map]
  rfl

theorem entries_full {assignments : List (String × List Int)} (full : assignments ≠ []) :
    (byKind assignments).map (fun entry => (entryText entry).toList) ≠ [] := by
  intro none
  have length := congrArg List.length none
  rw [List.length_map,byKind,List.length_insertionSort] at length
  exact full (List.length_eq_zero_iff.mp length)

theorem entry_semicolons (entry : String × List Int) : (entryText entry).toList.count ';' = entry.1.toList.count ';' := by
  have none : (idsText entry.2).toList.count ';' = 0 := List.count_eq_zero.mpr (ids_plain (by decide) (by decide) entry.2)
  rw [entryText_parts,List.count_append,List.count_cons,none]
  rfl

-- Read as entries, the chosen ids are the same when as many semicolons stand in
-- each kind.
theorem assignments_same (full : one.assignments ≠ []) (full' : two.assignments ≠ []) (counts : semicolons one = semicolons two)
    (same : (chosenText one.assignments).toList = (chosenText two.assignments).toList) : one.assignments.Perm two.assignments := by
  rw [chosen_joined,chosen_joined,join_exact (entries_full full) (entries_full full')] at same
  have entries : (byKind one.assignments).map (fun entry => (entryText entry).toList) =
      (byKind two.assignments).map (fun entry => (entryText entry).toList) := by
    apply cuts_same _ same
    simp only [List.map_map]
    have each : ∀ assignments, (byKind assignments).map (List.count ';' ∘ fun entry => (entryText entry).toList) =
        (byKind assignments).map (fun entry => entry.1.toList.count ';') := by
      intro assignments
      exact List.map_congr_left (fun entry _ => entry_semicolons entry)
    rw [each,each]
    exact counts
  have sorted : byKind one.assignments = byKind two.assignments := List.map_injective_iff.mpr (fun _ _ => entry_injective) entries
  have perm := (List.perm_insertionSort (fun a b : String × List Int => a.1 ≤ b.1) one.assignments).symm
  unfold byKind at sorted
  rw [sorted] at perm
  exact perm.trans (List.perm_insertionSort _ _)

def quantityText (quantity : Int) : List Char := 'q' :: ("uantity=".toList ++ (toString quantity).toList)

def assignmentTexts (body : ReservationBody) : List (List Char) :=
  if body.assignments = [] then [] else ['a' :: ("ssignments=".toList ++ (chosenText body.assignments).toList)]

theorem texts_parts (strip : String → String) (body : ReservationBody) : (body.texts strip).map String.toList = (strip body.purpose).toList ::
    (body.externalRef.toList.map String.toList ++ (body.sentQuantity.toList.map quantityText ++ assignmentTexts body)) := by
  have quantities : (body.sentQuantity.toList.map (fun quantity => s!"quantity={quantity}")).map String.toList =
      body.sentQuantity.toList.map quantityText := by
    cases body.sentQuantity with
    | none => rfl
    | some quantity =>
      have text : (toString "quantity=" ++ toString quantity : String).toList = quantityText quantity := by
        rw [String.toList_append]
        rfl
      simp only [Option.toList_some,List.map_cons,List.map_nil,text]
  have chosen : (if body.assignments = [] then [] else ["assignments=" ++ chosenText body.assignments]).map String.toList = assignmentTexts body := by
    unfold assignmentTexts
    split
    · rfl
    · simp only [List.map_cons,List.map_nil,String.toList_append]
      rfl
  unfold ReservationBody.texts
  rw [List.map_append,List.map_append,List.map_append,quantities,chosen,List.append_assoc,List.append_assoc]
  rfl

theorem quantityText_plain (quantity : Int) : '|' ∉ quantityText quantity := by
  unfold quantityText
  simp only [List.mem_cons,List.mem_append,not_or]
  exact ⟨by decide,by decide,not_among (p := numeric) (by decide) (repr_numeric quantity)⟩

-- Of two bodies with one ending, both choose nothing or both choose in the same words.
theorem chosen_same (same : cuts '|' (assignmentTexts one) = cuts '|' (assignmentTexts two)) :
    one.assignments = [] ∧ two.assignments = [] ∨ one.assignments ≠ [] ∧ two.assignments ≠ [] ∧
      (chosenText one.assignments).toList = (chosenText two.assignments).toList := by
  unfold assignmentTexts at same
  by_cases none : one.assignments = []
  · by_cases none' : two.assignments = []
    · exact .inl ⟨none,none'⟩
    · rw [if_pos none,if_neg none'] at same
      exact absurd same.symm (cuts_full _ _)
  · by_cases none' : two.assignments = []
    · rw [if_neg none,if_pos none'] at same
      exact absurd same (cuts_full _ _)
    · rw [if_neg none,if_neg none'] at same
      simp only [cuts,List.flatMap_cons,List.flatMap_nil,List.append_nil] at same
      have text := (List.cons.inj (split_injective same)).2
      exact .inr ⟨none,none',List.append_cancel_left text⟩

theorem assignmentTexts_same (counts : semicolons one = semicolons two)
    (same : cuts '|' (assignmentTexts one) = cuts '|' (assignmentTexts two)) : one.assignments.Perm two.assignments := by
  obtain ⟨none,none'⟩ | ⟨some,some',text⟩ := chosen_same same
  · rw [none,none']
  · exact assignments_same some some' counts text

-- A quantity is labelled, and its label is not the one of the assignments.
theorem quantities_same (same : cuts '|' (one.sentQuantity.toList.map quantityText ++ assignmentTexts one) =
    cuts '|' (two.sentQuantity.toList.map quantityText ++ assignmentTexts two)) : one.sentQuantity = two.sentQuantity ∧
      cuts '|' (assignmentTexts one) = cuts '|' (assignmentTexts two) := by
  have apart : ∀ (quantity : Int) (body : ReservationBody) (rest : List (List Char)),
      cuts '|' (quantityText quantity :: rest) ≠ cuts '|' (assignmentTexts body) := by
    intro quantity body rest same
    rw [cuts_cons (quantityText_plain quantity)] at same
    unfold assignmentTexts at same
    split at same
    · cases same
    · obtain ⟨opened,more,text⟩ := cuts_opens (show '|' ∉ ['a'] by decide) ("ssignments=".toList ++ (chosenText body.assignments).toList) []
      rw [List.singleton_append] at text
      rw [text] at same
      cases (List.cons.inj same).1
  cases left : one.sentQuantity with
  | none =>
    cases right : two.sentQuantity with
    | none =>
      simp only [left,right,Option.toList_none,List.map_nil,List.nil_append] at same
      exact ⟨rfl,same⟩
    | some quantity' =>
      simp only [left,right,Option.toList_none,Option.toList_some,List.map_nil,List.map_cons,List.nil_append,List.cons_append] at same
      exact absurd same.symm (apart quantity' one _)
  | some quantity =>
    cases right : two.sentQuantity with
    | none =>
      simp only [left,right,Option.toList_none,Option.toList_some,List.map_nil,List.map_cons,List.nil_append,List.cons_append] at same
      exact absurd same (apart quantity two _)
    | some quantity' =>
      simp only [left,right,Option.toList_some,List.map_nil,List.map_cons,List.nil_append,List.cons_append] at same
      rw [cuts_cons (quantityText_plain quantity),cuts_cons (quantityText_plain quantity')] at same
      obtain ⟨text,rest⟩ := List.cons.inj same
      have number := List.append_cancel_left (List.cons.inj text).2
      exact ⟨congrArg some (repr_injective number),rest⟩

theorem sent_same (alike : pieces strip one = pieces strip two) (purposes : bars (strip one.purpose) = bars (strip two.purpose))
    (references : one.externalRef.map bars = two.externalRef.map bars) :
    strip one.purpose = strip two.purpose ∧ one.externalRef = two.externalRef ∧ one.sentQuantity = two.sentQuantity ∧
      cuts '|' (assignmentTexts one) = cuts '|' (assignmentTexts two) := by
  unfold pieces at alike
  rw [texts_parts,texts_parts] at alike
  obtain ⟨purpose,rest⟩ := cuts_head purposes alike
  have reference : one.externalRef = two.externalRef ∧ cuts '|' (one.sentQuantity.toList.map quantityText ++ assignmentTexts one) =
      cuts '|' (two.sentQuantity.toList.map quantityText ++ assignmentTexts two) := by
    cases left : one.externalRef with
    | none =>
      cases right : two.externalRef with
      | none =>
        simp only [left,right,Option.toList_none,List.map_nil,List.nil_append] at rest
        exact ⟨rfl,rest⟩
      | some ref' =>
        rw [left,right] at references
        cases references
    | some ref =>
      cases right : two.externalRef with
      | none =>
        rw [left,right] at references
        cases references
      | some ref' =>
        rw [left,right] at references
        simp only [left,right,Option.toList_some,List.map_cons,List.map_nil,List.nil_append,List.cons_append] at rest
        obtain ⟨text,rest'⟩ := cuts_head (Option.some.inj references) rest
        exact ⟨congrArg some (String.toList_injective text),rest'⟩
  obtain ⟨quantity,chosen⟩ := quantities_same reference.2
  exact ⟨String.toList_injective purpose,reference.1,quantity,chosen⟩

theorem same_exact : (asked strip resourceId one = asked strip otherId two → SameRequest strip resourceId one otherId two) ↔
    ¬ Blurs strip resourceId one otherId two := by
  constructor
  · intro told blurs
    have same := told (asked_exact.mpr ⟨blurs.resource,blurs.date,blurs.start,blurs.finish,blurs.alike⟩)
    rcases blurs.moved with purpose | reference | kinds
    · exact purpose (congrArg bars same.purpose)
    · exact reference (congrArg (Option.map bars) same.reference)
    · exact kinds (semicolons_same same.assignments)
  · intro clear texts
    obtain ⟨resource,date,start,finish,alike⟩ := asked_exact.mp texts
    have still : bars (strip one.purpose) = bars (strip two.purpose) ∧ one.externalRef.map bars = two.externalRef.map bars ∧
        semicolons one = semicolons two := by
      by_contra moved
      apply clear
      refine ⟨resource,date,start,finish,alike,?_⟩
      by_cases purpose : bars (strip one.purpose) = bars (strip two.purpose)
      · by_cases reference : one.externalRef.map bars = two.externalRef.map bars
        · exact .inr (.inr (fun kinds => moved ⟨purpose,reference,kinds⟩))
        · exact .inr (.inl reference)
      · exact .inl purpose
    obtain ⟨purpose,reference,quantity,chosen⟩ := sent_same alike still.1 still.2.1
    exact ⟨resource,date,start,finish,purpose,reference,quantity,assignmentTexts_same still.2.2 chosen⟩

-- No free text holds a separator, and no reference reads as a labelled part.
structure Plain (strip : String → String) (body : ReservationBody) : Prop where
  purpose : bars (strip body.purpose) = 0
  reference : ∀ ref ∈ body.externalRef, bars ref = 0 ∧ ¬ "quantity=".toList <+: ref.toList ∧ ¬ "assignments=".toList <+: ref.toList
  kinds : ∀ entry ∈ body.assignments, entry.1.toList.count ';' = 0

theorem plain_semicolons (plain : Plain strip one) (plain' : Plain strip two) (same : cuts '|' (assignmentTexts one) = cuts '|' (assignmentTexts two)) :
    semicolons one = semicolons two := by
  have free : ∀ {body : ReservationBody}, Plain strip body → ∀ text ∈ (byKind body.assignments).map (fun entry => (entryText entry).toList), ';' ∉ text := by
    intro body plain text member
    obtain ⟨entry,there,rfl⟩ := List.mem_map.mp member
    apply List.count_eq_zero.mp
    rw [entry_semicolons]
    exact plain.kinds entry ((List.mem_insertionSort _).mp there)
  have zeros : ∀ {body : ReservationBody}, Plain strip body → semicolons body = List.replicate (byKind body.assignments).length 0 := by
    intro body plain
    unfold semicolons
    rw [← List.map_const']
    apply List.map_congr_left
    intro entry member
    exact plain.kinds entry ((List.mem_insertionSort _).mp member)
  rw [zeros plain,zeros plain']
  obtain ⟨none,none'⟩ | ⟨some,some',text⟩ := chosen_same same
  · rw [none,none']
  · have split := congrArg (fun text => text.splitOn ';') text
    simp only [chosen_joined,join] at split
    rw [List.splitOn_intercalate ';' (free plain) (entries_full some),List.splitOn_intercalate ';' (free plain') (entries_full some')] at split
    have length := congrArg List.length split
    rw [List.length_map,List.length_map] at length
    rw [length]

-- A reference is never taken for what follows the purpose of another request.
theorem plain_reference {ref : String} {rest rest' : List (List Char)} (plain : Plain strip one) (sent : one.externalRef = some ref)
    (shape : rest' = two.sentQuantity.toList.map quantityText ++ assignmentTexts two) : cuts '|' (ref.toList :: rest) ≠ cuts '|' rest' := by
  intro same
  obtain ⟨free,unlike,unlike'⟩ := plain.reference ref sent
  rw [cuts_cons (List.count_eq_zero.mp free),shape] at same
  cases quantity : two.sentQuantity with
  | some n =>
    rw [quantity] at same
    simp only [Option.toList_some,List.map_cons,List.map_nil,List.cons_append,List.nil_append] at same
    rw [cuts_cons (quantityText_plain n)] at same
    apply unlike
    rw [(List.cons.inj same).1]
    exact ⟨(toString n).toList,rfl⟩
  | none =>
    rw [quantity] at same
    simp only [Option.toList_none,List.map_nil,List.nil_append] at same
    unfold assignmentTexts at same
    split at same
    · cases same
    · have label : 'a' :: ("ssignments=".toList ++ (chosenText two.assignments).toList) =
          "assignments=".toList ++ (chosenText two.assignments).toList := rfl
      rw [label] at same
      obtain ⟨more,pieces,split⟩ := cuts_opens (show '|' ∉ "assignments=".toList by decide) (chosenText two.assignments).toList []
      rw [split] at same
      apply unlike'
      rw [(List.cons.inj same).1]
      exact ⟨more,rfl⟩

-- Requests in plain texts are always told apart.
theorem plain_clear (plain : Plain strip one) (plain' : Plain strip two) : ¬ Blurs strip resourceId one otherId two := by
  intro blurs
  have alike := blurs.alike
  have purposes : bars (strip one.purpose) = bars (strip two.purpose) := plain.purpose.trans plain'.purpose.symm
  unfold pieces at alike
  rw [texts_parts,texts_parts] at alike
  obtain ⟨_,rest⟩ := cuts_head purposes alike
  have references : one.externalRef.map bars = two.externalRef.map bars := by
    cases left : one.externalRef with
    | none =>
      cases right : two.externalRef with
      | none => rfl
      | some ref' =>
        rw [left,right] at rest
        exact absurd rest.symm (plain_reference plain' right rfl)
    | some ref =>
      cases right : two.externalRef with
      | none =>
        rw [left,right] at rest
        exact absurd rest (plain_reference plain left rfl)
      | some ref' =>
        simp only [Option.map_some,(plain.reference ref left).1,(plain'.reference ref' right).1]
  obtain ⟨_,_,_,chosen⟩ := sent_same blurs.alike purposes references
  rcases blurs.moved with purpose | reference | kinds
  · exact purpose purposes
  · exact reference references
  · exact kinds (plain_semicolons plain plain' chosen)

-- Requests are told apart unless they blur; and where SHA-256 tells texts apart,
-- a key that comes back with another request is refused unless the two blur.
theorem fingerprint_exact (strip : String → String) (resourceId otherId : Int) (one two : ReservationBody) :
    ((asked strip resourceId one = asked strip otherId two → SameRequest strip resourceId one otherId two) ↔
      ¬ Blurs strip resourceId one otherId two) ∧
    ∀ sha256 : String → String, Function.Injective sha256 → ∀ (db : Database) (seen : Reservation),
      seen.requestFingerprint = sha256 (asked strip otherId two) →
        ((¬ SameRequest strip resourceId one otherId two →
          replay db seen (sha256 (asked strip resourceId one)) = .error (refuse 422 keyReused .idempotencyKeyReused)) ↔
            ¬ Blurs strip resourceId one otherId two) := by
  refine ⟨same_exact,?_⟩
  intro sha256 injective db seen print
  rw [← same_exact]
  have refused : replay db seen (sha256 (asked strip resourceId one)) = .error (refuse 422 keyReused .idempotencyKeyReused) ↔
      asked strip resourceId one ≠ asked strip otherId two := by
    unfold replay ensure
    rw [print]
    by_cases same : asked strip resourceId one = asked strip otherId two
    · simp [same,bind,Except.bind]
    · have apart : sha256 (asked strip otherId two) ≠ sha256 (asked strip resourceId one) := fun equal => same (injective equal).symm
      simp [same,apart,bind,Except.bind]
  rw [refused]
  exact ⟨fun told same => by_contra (fun apart => told apart same),fun told apart same => apart (told same)⟩

def lab (sentQuantity : Option Int) (externalRef : Option String) (units : ∀ quantity ∈ sentQuantity, 1 ≤ quantity)
    (referenced : ∀ ref ∈ externalRef, 1 ≤ ref.length ∧ ref.length ≤ 120) : ReservationBody :=
  ⟨739000,⟨clock 9 0,none,by decide⟩,⟨clock 10 0,none,by decide⟩,"Lab",sentQuantity,externalRef,[],by decide,by decide,units,by decide,referenced,by decide⟩

def twoUnits : ReservationBody := lab (some 2) none (by decide) (by decide)
def oneReferenced (ref : String) (short : ∀ sent ∈ some ref, 1 ≤ sent.length ∧ sent.length ≤ 120) : ReservationBody :=
  lab none (some ref) (by decide) short

def stored (print : String) : Reservation :=
  ⟨1,1,739000,clock 9 0,clock 10 0,"Lab",some "ada","key",print,none,2,.pooled,.held,none,nine_to_ten,two_units⟩

theorem referenced_refused : replay (Database.empty 739000) (stored (asked id 1 twoUnits)) (asked id 1 (oneReferenced "r-7" (by decide))) =
    .error (refuse 422 keyReused .idempotencyKeyReused) := by
  have clear : ¬ Blurs id 1 (oneReferenced "r-7" (by decide)) 1 twoUnits :=
    plain_clear ⟨by decide,by decide,by decide⟩ ⟨by decide,by decide,by decide⟩
  have apart : ¬ SameRequest id 1 (oneReferenced "r-7" (by decide)) 1 twoUnits := fun same => absurd same.reference (by decide)
  exact ((fingerprint_exact id 1 1 (oneReferenced "r-7" (by decide)) twoUnits).2 id Function.injective_id (Database.empty 739000)
    (stored (asked id 1 twoUnits)) rfl).mpr clear apart

-- A reference reads as a quantity.
theorem reference_read_as_quantity : ¬ ∀ (strip : String → String) (resourceId otherId : Int) (one two : ReservationBody),
    asked strip resourceId one = asked strip otherId two → SameRequest strip resourceId one otherId two := by
  intro claimed
  exact absurd (claimed id 1 1 (oneReferenced "quantity=2" (by decide)) twoUnits (by decide)).reference (by decide)

end ChronosLedger
