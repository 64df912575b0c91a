import ChronosLedger.Calendar

namespace ChronosLedger

def leapYear (year : Int) : Prop := year % 4 = 0 ∧ (year % 100 ≠ 0 ∨ year % 400 = 0)

instance (year : Int) : Decidable (leapYear year) := inferInstanceAs (Decidable (_ ∧ _))

def daysBeforeYear (year : Int) : Int := (year-1)*365+(year-1)/4-(year-1)/100+(year-1)/400

def daysBeforeMonth (year month : Int) : Int :=
  if month ≤ 2 then 31*(month-1) else (153*(month-3)+2)/5+59+(if leapYear year then 1 else 0)

def daysInMonth (year month : Int) : Int :=
  if month = 2 then (if leapYear year then 29 else 28) else if month = 4 ∨ month = 6 ∨ month = 9 ∨ month = 11 then 30 else 31

def ordinal (year month day : Int) : Int := daysBeforeYear year+daysBeforeMonth year month+day

def yearOfEra (ofEra : Int) : Int := (ofEra-ofEra/1460+ofEra/36524-ofEra/146096)/365

-- A day of the four hundred years by centuries, leap cycles and years.
structure EraParts (ofEra c q r s : Int) : Prop where
  centuries : 0 ≤ c ∧ c ≤ 3
  cycles : 0 ≤ q ∧ q ≤ 24
  years : 0 ≤ r ∧ r ≤ 3
  days : 0 ≤ s ∧ s ≤ 365
  whole : ofEra = 36524*c+1461*q+365*r+s
  leapDay : s = 365 → r = 3
  shortCentury : c < 3 → 1461*q+365*r+s ≤ 36523
  century : 1461*q+365*r+s ≤ 36524

theorem eraParts {ofEra : Int} (low : 0 ≤ ofEra) (high : ofEra < 146097) : ∃ c q r s, EraParts ofEra c q r s := by
  obtain ⟨c,centuries,d1,one⟩ : ∃ c, (0 ≤ c ∧ c ≤ 3) ∧ 0 ≤ ofEra-36524*c ∧ (ofEra-36524*c ≤ 36523 ∨ c = 3 ∧ ofEra-36524*c ≤ 36524) :=
    ⟨min 3 (ofEra/36524),by omega,by omega,by omega⟩
  obtain ⟨q,cycles,d2,two⟩ : ∃ q, (0 ≤ q ∧ q ≤ 24) ∧ 0 ≤ ofEra-36524*c-1461*q ∧ ofEra-36524*c-1461*q ≤ 1460 :=
    ⟨(ofEra-36524*c)/1461,by omega,by omega,by omega⟩
  obtain ⟨r,years,d3,three⟩ : ∃ r, (0 ≤ r ∧ r ≤ 3) ∧ 0 ≤ ofEra-36524*c-1461*q-365*r ∧
      (ofEra-36524*c-1461*q-365*r ≤ 364 ∨ r = 3 ∧ ofEra-36524*c-1461*q-365*r ≤ 365) :=
    ⟨min 3 ((ofEra-36524*c-1461*q)/365),by omega,by omega,by omega⟩
  exact ⟨c,q,r,ofEra-36524*c-1461*q-365*r,centuries,cycles,years,by omega,by omega,by omega,by omega,by omega⟩

theorem centuryOf {ofEra c x : Int} (centuries : 0 ≤ c ∧ c ≤ 3) (inside : 0 ≤ x ∧ x ≤ 36524) (short : c < 3 → x ≤ 36523)
    (whole : ofEra = 36524*c+x) : ofEra/36524-ofEra/146096 = c := by
  obtain rfl | rfl | rfl | rfl : c = 0 ∨ c = 1 ∨ c = 2 ∨ c = 3 := by omega
  all_goals omega

theorem EraParts.year {ofEra c q r s : Int} (parts : EraParts ofEra c q r s) : yearOfEra ofEra = 100*c+4*q+r := by
  obtain ⟨centuries,cycles,years,days,whole,leapDay,shortCentury,century⟩ := parts
  have cycle : ofEra/1460 = 25*c+q+(24*c+q+365*r+s)/1460 := by omega
  have extra : (24*c+q+365*r+s)/1460 = if 1460 ≤ 24*c+q+365*r+s then 1 else 0 := by
    split <;> omega
  have last : ofEra/36524-ofEra/146096 = c := centuryOf centuries ⟨by omega,century⟩ shortCentury (by omega)
  unfold yearOfEra
  rw [cycle,extra]
  split <;> omega

def civilYear (day : Int) : Int :=
  let ofEra := (day+305)-(day+305)/146097*146097
  let ofYear := ofEra-(365*yearOfEra ofEra+yearOfEra ofEra/4-yearOfEra ofEra/100)
  let fromMarch := (5*ofYear+2)/153
  let month := if fromMarch < 10 then fromMarch+3 else fromMarch-9
  yearOfEra ofEra+(day+305)/146097*400+(if month ≤ 2 then 1 else 0)

def civilMonth (day : Int) : Int :=
  let ofEra := (day+305)-(day+305)/146097*146097
  let ofYear := ofEra-(365*yearOfEra ofEra+yearOfEra ofEra/4-yearOfEra ofEra/100)
  let fromMarch := (5*ofYear+2)/153
  if fromMarch < 10 then fromMarch+3 else fromMarch-9

def civilDay (day : Int) : Int :=
  let ofEra := (day+305)-(day+305)/146097*146097
  let ofYear := ofEra-(365*yearOfEra ofEra+yearOfEra ofEra/4-yearOfEra ofEra/100)
  let fromMarch := (5*ofYear+2)/153
  ofYear-(153*fromMarch+2)/5+1

theorem isoDate_civil (day : Int) :
    isoDate day = digits 4 (civilYear day) ++ "-" ++ digits 2 (civilMonth day) ++ "-" ++ digits 2 (civilDay day) := rfl

theorem daysBeforeYear_leap (year : Int) :
    daysBeforeYear year+(if leapYear year then 1 else 0) = 365*year-365+year/4-year/100+year/400 := by
  unfold daysBeforeYear
  by_cases leap : leapYear year
  · rw [if_pos leap]
    unfold leapYear at leap
    omega
  · rw [if_neg leap]
    unfold leapYear at leap
    omega

theorem daysBeforeYear_next (year : Int) : daysBeforeYear (year+1) = 365*year+year/4-year/100+year/400 := by
  unfold daysBeforeYear
  rw [Int.add_sub_cancel]
  omega

theorem EraParts.length {ofEra c q r s : Int} (parts : EraParts ofEra c q r s) (era : Int) :
    365*(100*c+4*q+r+era*400)+(100*c+4*q+r+era*400)/4-(100*c+4*q+r+era*400)/100+(100*c+4*q+r+era*400)/400 =
      146097*era+36524*c+1461*q+365*r := by
  obtain ⟨centuries,cycles,years,_⟩ := parts
  have four : (100*c+4*q+r+era*400)/4 = 25*c+q+100*era := by omega
  have hundred : (100*c+4*q+r+era*400)/100 = c+4*era := by omega
  have all : (100*c+4*q+r+era*400)/400 = era := by omega
  omega

structure CivilParts (day year month dom : Int) : Prop where
  month_ : 1 ≤ month ∧ month ≤ 12
  dom_ : 1 ≤ dom ∧ dom ≤ daysInMonth year month
  ordinal_ : ordinal year month dom = day

theorem EraParts.ofYear {ofEra c q r s : Int} (parts : EraParts ofEra c q r s) :
    ofEra-(365*yearOfEra ofEra+yearOfEra ofEra/4-yearOfEra ofEra/100) = s := by
  rw [parts.year]
  obtain ⟨centuries,cycles,years,_,whole,_⟩ := parts
  have four : (100*c+4*q+r)/4 = 25*c+q := by omega
  have hundred : (100*c+4*q+r)/100 = c := by omega
  omega

theorem EraParts.leap {ofEra c q r s : Int} (parts : EraParts ofEra c q r s) (era : Int) (last : s = 365) :
    leapYear (100*c+4*q+r+era*400+1) := by
  obtain ⟨centuries,cycles,years,_,_,leapDay,shortCentury,_⟩ := parts
  have end_ := leapDay last
  unfold leapYear
  by_cases short : c < 3
  · have inside := shortCentury short
    have few : q ≤ 23 := by omega
    exact ⟨by omega,.inl (by omega)⟩
  · by_cases whole : q = 24
    · exact ⟨by omega,.inr (by omega)⟩
    · exact ⟨by omega,.inl (by omega)⟩

-- The March months have 31, 30, 31, 30, 31 days over and over, and the last
-- of them is February.
theorem marchMonth_bounds {s : Int} (days : 0 ≤ s ∧ s ≤ 365) : 0 ≤ (5*s+2)/153 ∧ (5*s+2)/153 ≤ 11 ∧
    (153*((5*s+2)/153)+2)/5 ≤ s ∧ (s < (153*((5*s+2)/153+1)+2)/5) := by
  refine ⟨by omega,by omega,by omega,by omega⟩

theorem civil_parts (day : Int) : CivilParts day (civilYear day) (civilMonth day) (civilDay day) := by
  obtain ⟨c,q,r,s,parts⟩ := @eraParts ((day+305)-(day+305)/146097*146097) (by omega) (by omega)
  have ofYear := parts.ofYear
  have year := parts.year
  have length := parts.length ((day+305)/146097)
  have leap := parts.leap ((day+305)/146097)
  have whole := parts.whole
  obtain ⟨low,high,from_,until_⟩ := marchMonth_bounds parts.days
  have days := parts.days
  unfold civilYear civilMonth civilDay
  dsimp only
  rw [ofYear,year]
  generalize (5*s+2)/153 = march at *
  generalize (day+305)/146097 = era at *
  by_cases early : march < 10
  · have later : ¬ march+3 ≤ 2 := by omega
    rw [if_pos early,if_neg later,Int.add_zero]
    refine ⟨by omega,⟨by omega,?_⟩,?_⟩
    · unfold daysInMonth
      rw [if_neg (by omega)]
      split <;> omega
    · have before := daysBeforeYear_leap (100*c+4*q+r+era*400)
      unfold ordinal daysBeforeMonth
      rw [if_neg later,Int.add_sub_cancel]
      omega
  · have first : march-9 ≤ 2 := by omega
    rw [if_neg early,if_pos first]
    refine ⟨by omega,⟨by omega,?_⟩,?_⟩
    · unfold daysInMonth
      by_cases february : march-9 = 2
      · rw [if_pos february]
        split
        · omega
        · rename_i common
          have short : s ≠ 365 := fun last => common (leap last)
          omega
      · rw [if_neg february,if_neg (by omega)]
        omega
    · have before := daysBeforeYear_next (100*c+4*q+r+era*400)
      unfold ordinal daysBeforeMonth
      rw [if_pos first]
      omega

end ChronosLedger
