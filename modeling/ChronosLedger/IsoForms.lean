import ChronosLedger.CivilDates
import Mathlib.Algebra.Group.Nat.Defs
import Mathlib.Data.List.Basic

namespace ChronosLedger

def maxOrdinal : Int := 3652059

theorem CivilParts.dom_le {day year month dom : Int} (parts : CivilParts day year month dom) : dom ≤ 31 := by
  have bound := parts.dom_.2
  unfold daysInMonth at bound
  split at bound
  · split at bound <;> omega
  · split at bound <;> omega

theorem civilYear_bounds {day : Int} (low : 1 ≤ day) (high : day ≤ maxOrdinal) : 1 ≤ civilYear day ∧ civilYear day ≤ 9999 := by
  have most := (civil_parts day).dom_le
  obtain ⟨month,dom,same⟩ := civil_parts day
  unfold maxOrdinal at high
  unfold ordinal daysBeforeMonth at same
  generalize civilYear day = year at *
  generalize civilMonth day = month at *
  generalize civilDay day = dom at *
  constructor
  · by_contra early
    have before : daysBeforeYear year ≤ -366 := by
      unfold daysBeforeYear
      omega
    split at same
    · omega
    · split at same <;> omega
  · by_contra late
    have after : 3652059 ≤ daysBeforeYear year := by
      unfold daysBeforeYear
      omega
    split at same
    · omega
    · split at same <;> omega

def field (text : List Char) : Option Int :=
  if text ≠ [] ∧ text.all Char.isDigit = true then some ((Nat.ofDigitChars 10 text 0 : Nat) : Int) else none

theorem toString_nat (n : Nat) : (toString (n : Int)).toList = Nat.toDigits 10 n := by
  change (Nat.repr n).toList = _
  exact Nat.toList_repr

-- The written digits of a number that is no wider than they are.
structure Padded (width n : Nat) (text : List Char) : Prop where
  length : text.length = width
  digits_ : text.all Char.isDigit = true
  value : Nat.ofDigitChars 10 text 0 = n

theorem digits_padded {width n : Nat} (positive : 0 < width) (small : n < 10^width) : Padded width n (digits width n).toList := by
  have short : (Nat.toDigits 10 n).length ≤ width := (Nat.length_toDigits_le_iff (by decide) positive).mpr small
  have length : (toString (n : Int)).length = (Nat.toDigits 10 n).length := by
    rw [← String.length_toList,toString_nat]
  have text : (digits width n).toList = List.replicate (width-(Nat.toDigits 10 n).length) '0' ++ Nat.toDigits 10 n := by
    unfold digits
    rw [String.toList_append,String.toList_ofList,toString_nat,length]
  rw [text]
  refine ⟨?_,?_,?_⟩
  · rw [List.length_append,List.length_replicate]
    omega
  · rw [List.all_append,Bool.and_eq_true]
    refine ⟨List.all_eq_true.mpr (fun c member => ?_),List.all_eq_true.mpr (fun c member => ?_)⟩
    · rw [List.eq_of_mem_replicate member]
      rfl
    · exact Nat.isDigit_of_mem_toDigits (by decide) (by decide) member
  · rw [Nat.ofDigitChars_append,Nat.ofDigitChars_replicate_zero,Nat.mul_zero,Nat.ofDigitChars_ten_toDigits]

theorem Padded.field {width n : Nat} {text : List Char} (padded : Padded (width+1) n text) : field text = some (n : Int) := by
  have full : text ≠ [] := by
    intro none_
    have length := padded.length
    rw [none_] at length
    cases length
  unfold ChronosLedger.field
  rw [if_pos ⟨full,padded.digits_⟩,padded.value]

theorem Padded.two {n : Nat} {text : List Char} (padded : Padded 2 n text) : ∃ a b, text = [a,b] := List.length_eq_two.mp padded.length

theorem Padded.four {n : Nat} {text : List Char} (padded : Padded 4 n text) : ∃ a b c d, text = [a,b,c,d] := by
  match text,padded.length with
  | [a,b,c,d],_ => exact ⟨a,b,c,d,rfl⟩

theorem Padded.six {n : Nat} {text : List Char} (padded : Padded 6 n text) : ∃ a b c d e f, text = [a,b,c,d,e,f] := by
  match text,padded.length with
  | [a,b,c,d,e,f],_ => exact ⟨a,b,c,d,e,f,rfl⟩

-- date.fromisoformat. The forms without hyphens and with weeks, which no
-- archive is written in, are left out.
def readDate (text : List Char) : Option Int :=
  match text with
  | [y1,y2,y3,y4,'-',m1,m2,'-',d1,d2] => do
    let year ← field [y1,y2,y3,y4]
    let month ← field [m1,m2]
    let dom ← field [d1,d2]
    if 1 ≤ year ∧ (1 ≤ month ∧ month ≤ 12) ∧ 1 ≤ dom ∧ dom ≤ daysInMonth year month then some (ordinal year month dom) else none
  | _ => none

theorem isoDate_parts {day : Int} (low : 1 ≤ day) (high : day ≤ maxOrdinal) :
    (isoDate day).toList.length = 10 ∧ readDate (isoDate day).toList = some day := by
  have most := (civil_parts day).dom_le
  obtain ⟨month,dom,same⟩ := civil_parts day
  obtain ⟨first,last⟩ := civilYear_bounds low high
  rw [isoDate_civil,String.toList_append,String.toList_append,String.toList_append,String.toList_append]
  generalize civilYear day = y at *
  generalize civilMonth day = m at *
  generalize civilDay day = d at *
  obtain ⟨y,rfl⟩ := Int.eq_ofNat_of_zero_le (show 0 ≤ y by omega)
  obtain ⟨m,rfl⟩ := Int.eq_ofNat_of_zero_le (show 0 ≤ m by omega)
  obtain ⟨d,rfl⟩ := Int.eq_ofNat_of_zero_le (show 0 ≤ d by omega)
  have years : Padded 4 y (digits 4 y).toList := digits_padded (by decide) (by omega)
  have months : Padded 2 m (digits 2 m).toList := digits_padded (by decide) (by omega)
  have days : Padded 2 d (digits 2 d).toList := digits_padded (by decide) (by omega)
  have readYear := years.field
  have readMonth := months.field
  have readDay := days.field
  obtain ⟨y1,y2,y3,y4,writtenYear⟩ := years.four
  obtain ⟨m1,m2,writtenMonth⟩ := months.two
  obtain ⟨d1,d2,writtenDay⟩ := days.two
  rw [writtenYear] at readYear ⊢
  rw [writtenMonth] at readMonth ⊢
  rw [writtenDay] at readDay ⊢
  refine ⟨rfl,?_⟩
  change readDate [y1,y2,y3,y4,'-',m1,m2,'-',d1,d2] = _
  unfold readDate
  simp only [readYear,readMonth,readDay,Option.bind_eq_bind,Option.bind_some]
  rw [if_pos ⟨first,month,dom⟩,same]

-- time.isoformat with microseconds, whatever they are.
def isoMicros (at_ : Time) : String :=
  digits 2 (at_.val/3600000000 : Nat) ++ ":" ++ digits 2 (at_.val/60000000%60 : Nat) ++ ":" ++ digits 2 (at_.val/1000000%60 : Nat) ++
    "." ++ digits 6 (at_.val%1000000 : Nat)

def timeFrom (hour minute second micros : Int) : Option Time :=
  if hour < 24 ∧ minute < 60 ∧ second < 60 then
    some (Fin.ofNat 86400000000 (hour*3600000000+minute*60000000+second*1000000+micros).toNat)
  else none

-- time.fromisoformat, with hours and minutes at least; a longer fraction than
-- six digits is cut.
def readTime (text : List Char) : Option Time :=
  match text with
  | [h1,h2,':',m1,m2] => do timeFrom (← field [h1,h2]) (← field [m1,m2]) 0 0
  | [h1,h2,':',m1,m2,':',s1,s2] => do timeFrom (← field [h1,h2]) (← field [m1,m2]) (← field [s1,s2]) 0
  | h1 :: h2 :: ':' :: m1 :: m2 :: ':' :: s1 :: s2 :: '.' :: part => do
    let _ ← field part
    timeFrom (← field [h1,h2]) (← field [m1,m2]) (← field [s1,s2]) (← field ((part ++ List.replicate 6 '0').take 6))
  | _ => none

theorem timeFrom_parts (at_ : Time) : timeFrom (at_.val/3600000000 : Nat) (at_.val/60000000%60 : Nat) (at_.val/1000000%60 : Nat)
    (at_.val%1000000 : Nat) = some at_ := by
  have bound := at_.isLt
  have hours : at_.val/3600000000 < 24 := by omega
  have minutes : at_.val/60000000%60 < 60 := Nat.mod_lt _ (by decide)
  have seconds : at_.val/1000000%60 < 60 := Nat.mod_lt _ (by decide)
  unfold timeFrom
  rw [if_pos ⟨by omega,by omega,by omega⟩]
  have whole : (((at_.val/3600000000 : Nat) : Int)*3600000000+(at_.val/60000000%60 : Nat)*60000000+(at_.val/1000000%60 : Nat)*1000000+
      (at_.val%1000000 : Nat)).toNat = at_.val := by omega
  rw [whole]
  exact congrArg some (Fin.ext (Nat.mod_eq_of_lt bound))

-- What is written of a time of day, character for character.
theorem isoMicros_parts (at_ : Time) : ∃ h1 h2 m1 m2 s1 s2 u1 u2 u3 u4 u5 u6,
    (isoMicros at_).toList = [h1,h2,':',m1,m2,':',s1,s2,'.',u1,u2,u3,u4,u5,u6] ∧
      field [h1,h2] = some ((at_.val/3600000000 : Nat) : Int) ∧ field [m1,m2] = some ((at_.val/60000000%60 : Nat) : Int) ∧
      field [s1,s2] = some ((at_.val/1000000%60 : Nat) : Int) ∧ field [u1,u2,u3,u4,u5,u6] = some ((at_.val%1000000 : Nat) : Int) := by
  have bound := at_.isLt
  have hours : Padded 2 (at_.val/3600000000) (digits 2 (at_.val/3600000000 : Nat)).toList := digits_padded (by decide) (by omega)
  have minutes : Padded 2 (at_.val/60000000%60) (digits 2 (at_.val/60000000%60 : Nat)).toList := digits_padded (by decide) (by omega)
  have seconds : Padded 2 (at_.val/1000000%60) (digits 2 (at_.val/1000000%60 : Nat)).toList := digits_padded (by decide) (by omega)
  have micros : Padded 6 (at_.val%1000000) (digits 6 (at_.val%1000000 : Nat)).toList := digits_padded (by decide) (by omega)
  have readHours := hours.field
  have readMinutes := minutes.field
  have readSeconds := seconds.field
  have readMicros := micros.field
  obtain ⟨h1,h2,writtenHours⟩ := hours.two
  obtain ⟨m1,m2,writtenMinutes⟩ := minutes.two
  obtain ⟨s1,s2,writtenSeconds⟩ := seconds.two
  obtain ⟨u1,u2,u3,u4,u5,u6,writtenMicros⟩ := micros.six
  rw [writtenHours] at readHours
  rw [writtenMinutes] at readMinutes
  rw [writtenSeconds] at readSeconds
  rw [writtenMicros] at readMicros
  have colon : ":".toList = [':'] := rfl
  have point : ".".toList = ['.'] := rfl
  refine ⟨h1,h2,m1,m2,s1,s2,u1,u2,u3,u4,u5,u6,?_,readHours,readMinutes,readSeconds,readMicros⟩
  unfold isoMicros
  rw [String.toList_append,String.toList_append,String.toList_append,String.toList_append,String.toList_append,String.toList_append,
    writtenHours,writtenMinutes,writtenSeconds,writtenMicros,colon,point]
  rfl

theorem readTime_isoMicros (at_ : Time) : readTime (isoMicros at_).toList = some at_ := by
  obtain ⟨h1,h2,m1,m2,s1,s2,u1,u2,u3,u4,u5,u6,written,hours,minutes,seconds,micros⟩ := isoMicros_parts at_
  rw [written,readTime]
  simp only [hours,minutes,seconds,micros,Option.bind_eq_bind,Option.bind_some,List.cons_append,List.take_succ_cons,List.take_zero]
  exact timeFrom_parts at_

def isoMoment (moment : Int) : String := isoDate (dateOf moment) ++ "T" ++ isoMicros (timeOf moment)

def readOffset (text : List Char) : Option (Option Int) :=
  match text with
  | [] => some none
  | ['Z'] => some (some 0)
  | [sign,h1,h2,':',m1,m2] => do
    let hours ← field [h1,h2]
    let minutes ← field [m1,m2]
    if hours < 24 ∧ minutes < 60 then
      some (some ((if sign = '-' then -1 else 1)*(hours*3600000000+minutes*60000000)))
    else none
  | _ => none

def opensOffset (c : Char) : Bool := c = '+' ∨ c = '-' ∨ c = 'Z'

-- datetime.fromisoformat: the wall time, and the offset when one is written.
def readMoment (text : List Char) : Option (Int × Option Int) := do
  let day ← readDate (text.take 10)
  match text.drop 10 with
  | [] => some (midnight day,none)
  | _ :: rest =>
    let at_ ← readTime (rest.takeWhile (fun c => !opensOffset c))
    let offset ← readOffset (rest.dropWhile (fun c => !opensOffset c))
    some (combine day at_,offset)

theorem isDigit_plain {c : Char} (digit : c.isDigit = true) : opensOffset c = false := by
  unfold opensOffset
  refine decide_eq_false (fun opens => ?_)
  rcases opens with rfl | rfl | rfl <;> cases digit

theorem isoMicros_plain (at_ : Time) : ∀ c ∈ (isoMicros at_).toList, (!opensOffset c) = true := by
  obtain ⟨h1,h2,m1,m2,s1,s2,u1,u2,u3,u4,u5,u6,written,hours,minutes,seconds,micros⟩ := isoMicros_parts at_
  have plain {text : List Char} {n : Int} (read : field text = some n) : ∀ c ∈ text, (!opensOffset c) = true := by
    unfold field at read
    split at read
    · rename_i shaped
      intro c member
      rw [isDigit_plain (List.all_eq_true.mp shaped.2 c member)]
      rfl
    · cases read
  rw [written]
  intro c member
  change c ∈ [h1,h2] ++ ([':'] ++ ([m1,m2] ++ ([':'] ++ ([s1,s2] ++ (['.'] ++ [u1,u2,u3,u4,u5,u6]))))) at member
  rcases List.mem_append.mp member with own | later
  · exact plain hours c own
  rcases List.mem_append.mp later with own | later
  · rw [List.mem_singleton.mp own]
    rfl
  rcases List.mem_append.mp later with own | later
  · exact plain minutes c own
  rcases List.mem_append.mp later with own | later
  · rw [List.mem_singleton.mp own]
    rfl
  rcases List.mem_append.mp later with own | later
  · exact plain seconds c own
  rcases List.mem_append.mp later with own | later
  · rw [List.mem_singleton.mp own]
    rfl
  · exact plain micros c later

theorem readMoment_isoMoment {moment : Int} (low : 1 ≤ dateOf moment) (high : dateOf moment ≤ maxOrdinal) :
    readMoment (isoMoment moment ++ "+00:00").toList = some (moment,some 0) := by
  obtain ⟨length,date⟩ := isoDate_parts low high
  have plain := isoMicros_plain (timeOf moment)
  have offset : "+00:00".toList = ['+','0','0',':','0','0'] := rfl
  have mark : "T".toList = ['T'] := rfl
  have text : (isoMoment moment ++ "+00:00").toList = (isoDate (dateOf moment)).toList ++
      'T' :: ((isoMicros (timeOf moment)).toList ++ ['+','0','0',':','0','0']) := by
    unfold isoMoment
    rw [String.toList_append,String.toList_append,String.toList_append,offset,mark,List.append_assoc,List.append_assoc,List.singleton_append]
  have zero : readOffset ['+','0','0',':','0','0'] = some (some 0) := by decide
  unfold readMoment
  rw [text,List.take_left' length,List.drop_left' length,date]
  simp only [Option.bind_eq_bind,Option.bind_some]
  rw [List.takeWhile_append_of_pos plain,List.dropWhile_append_of_pos plain,List.takeWhile_cons_of_neg (by decide),
    List.dropWhile_cons_of_neg (by decide),List.append_nil,readTime_isoMicros,zero]
  exact congrArg (fun wall => some (wall,some 0)) (combine_split moment)

end ChronosLedger
