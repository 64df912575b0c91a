import Mathlib.Order.SuccPred.Archimedean
import Mathlib.Data.Int.ConditionallyCompleteOrder
import Mathlib.Algebra.Order.Group.Int
import ChronosLedger.RuleExpansion

namespace ChronosLedger.RuleExpansion

theorem yearOpens_next (year : Int) : ordinal year 1 1 < ordinal (year+1) 1 1 := by
  unfold ordinal daysBeforeYear daysBeforeMonth
  simp only [if_pos (show (1 : Int) ≤ 2 by decide)]
  omega

theorem yearOpens_mono : StrictMono (fun year => ordinal year 1 1) := strictMono_int_of_lt_succ yearOpens_next

theorem yearOpens_leap (year : Int) : ordinal (year+1) 1 1 = ordinal year 1 1+365+(if leapYear year then 1 else 0) := by
  have length := daysBeforeYear_leap year
  have next := daysBeforeYear_next year
  unfold ordinal
  simp only [daysBeforeMonth,if_pos (show (1 : Int) ≤ 2 by decide)]
  omega

theorem monthOpens_next (month : Int) : monthOpens (month+1) = monthOpens month+daysInMonth (month/12) (month%12+1) := by
  by_cases last : month%12 = 11
  · have year : (month+1)/12 = month/12+1 := by omega
    have first : (month+1)%12 = 0 := by omega
    have opens := yearOpens_leap (month/12)
    unfold monthOpens
    rw [year,first,last,Int.zero_add,opens]
    unfold ordinal daysBeforeMonth daysInMonth
    simp only [if_pos (show (1 : Int) ≤ 2 by decide)]
    omega
  · have year : (month+1)/12 = month/12 := by omega
    have next : (month+1)%12 = month%12+1 := by omega
    have low : 0 ≤ month%12 := by omega
    have high : month%12 < 11 := by omega
    unfold monthOpens
    rw [year,next]
    generalize month/12 = y at *
    generalize month%12 = m at *
    unfold ordinal daysBeforeMonth daysInMonth
    obtain rfl | rfl | rfl | rfl | rfl | rfl | rfl | rfl | rfl | rfl | rfl : m = 0 ∨ m = 1 ∨ m = 2 ∨ m = 3 ∨ m = 4 ∨ m = 5 ∨ m = 6 ∨ m = 7 ∨
        m = 8 ∨ m = 9 ∨ m = 10 := by omega
    all_goals simp
    all_goals first | omega | (split <;> omega)

theorem daysInMonth_pos (year month : Int) : 28 ≤ daysInMonth year month := by
  unfold daysInMonth
  split
  · split <;> omega
  · split <;> omega

theorem monthOpens_mono : StrictMono monthOpens := by
  refine strictMono_int_of_lt_succ (fun month => ?_)
  have next := monthOpens_next month
  have length := daysInMonth_pos (month/12) (month%12+1)
  omega

theorem monthOpens_year (year : Int) : monthOpens (12*year) = ordinal year 1 1 := by
  unfold monthOpens
  rw [show 12*year/12 = year by omega,show 12*year%12 = 0 by omega]
  rfl

theorem monthOf_civil (day : Int) : monthOpens (12*civilYear day+(civilMonth day-1)) ≤ day ∧
    day < monthOpens (12*civilYear day+(civilMonth day-1)+1) := by
  obtain ⟨⟨low,high⟩,⟨one,last⟩,whole⟩ := civil_parts day
  have next := monthOpens_next (12*civilYear day+(civilMonth day-1))
  have year : (12*civilYear day+(civilMonth day-1))/12 = civilYear day := by omega
  have month : (12*civilYear day+(civilMonth day-1))%12+1 = civilMonth day := by omega
  have opens : monthOpens (12*civilYear day+(civilMonth day-1)) = ordinal (civilYear day) (civilMonth day) 1 := by
    unfold monthOpens
    rw [year,month]
  rw [year,month] at next
  rw [next,opens]
  unfold ordinal at whole ⊢
  omega

variable {rule : Rrule}

theorem sinceWeekStart_bounds (rule : Rrule) (day : Int) : 0 ≤ sinceWeekStart rule day ∧ sinceWeekStart rule day ≤ 6 := by
  unfold sinceWeekStart
  omega

theorem starts_covers (rule : Rrule) (dtstart : Int) : rule.opens (rule.starts dtstart) ≤ dtstart ∧ dtstart ≤ rule.closes (rule.starts dtstart) := by
  obtain ⟨_,week⟩ := sinceWeekStart_bounds rule dtstart
  obtain ⟨low,high⟩ := monthOf_civil dtstart
  obtain ⟨month,_,_⟩ := civil_parts dtstart
  unfold Rrule.opens Rrule.closes Rrule.starts
  cases rule.freq with
  | daily => exact ⟨le_refl _,le_refl _⟩
  | weekly => exact ⟨le_refl _,by dsimp only; omega⟩
  | monthly => exact ⟨low,by dsimp only; omega⟩
  | yearly =>
    dsimp only
    have first := monthOpens_mono.monotone (show 12*civilYear dtstart ≤ 12*civilYear dtstart+(civilMonth dtstart-1) by omega)
    have last := monthOpens_mono.monotone (show 12*civilYear dtstart+(civilMonth dtstart-1)+1 ≤ 12*(civilYear dtstart+1) by omega)
    rw [monthOpens_year] at first last
    omega

theorem opens_closes (rule : Rrule) (at_ : Int) : rule.opens at_ ≤ rule.closes at_ := by
  obtain ⟨_,week⟩ := sinceWeekStart_bounds rule at_
  have year := yearOpens_next at_
  have month := monthOpens_mono (show at_ < at_+1 by omega)
  unfold Rrule.opens Rrule.closes
  cases rule.freq with
  | daily => exact le_refl _
  | weekly => dsimp only; omega
  | monthly => dsimp only; omega
  | yearly => dsimp only; omega

-- A positive INTERVAL takes the next step past all of this one.
theorem advance_later (forward : 1 ≤ rule.interval) (at_ : Int) : rule.closes at_ < rule.opens (rule.advance at_) := by
  unfold Rrule.opens Rrule.closes Rrule.advance
  cases rule.freq with
  | daily => dsimp only; omega
  | weekly => dsimp only; omega
  | monthly =>
    dsimp only
    have later := monthOpens_mono.monotone (show at_+1 ≤ at_+rule.interval by omega)
    omega
  | yearly =>
    dsimp only
    have later := yearOpens_mono.monotone (show at_+1 ≤ at_+rule.interval by omega)
    omega

-- A negative one takes it back before this one.
theorem advance_earlier (back : rule.interval ≤ -1) (at_ : Int) : rule.closes (rule.advance at_) < rule.opens at_ := by
  unfold Rrule.opens Rrule.closes Rrule.advance
  cases rule.freq with
  | daily => dsimp only; omega
  | weekly =>
    dsimp only
    obtain ⟨low,high⟩ := sinceWeekStart_bounds rule at_
    have start : sinceWeekStart rule (at_-sinceWeekStart rule at_+7*rule.interval) = 0 := by
      unfold sinceWeekStart weekday
      omega
    omega
  | monthly =>
    dsimp only
    have earlier := monthOpens_mono.monotone (show at_+rule.interval+1 ≤ at_ by omega)
    omega
  | yearly =>
    dsimp only
    have earlier := yearOpens_mono.monotone (show at_+rule.interval+1 ≤ at_ by omega)
    omega

-- With 0 the next step is this one again; a week begun midway is then whole.
theorem advance_still (still : rule.interval = 0) (at_ : Int) : rule.opens (rule.advance at_) ≤ rule.opens at_ ∧
    rule.closes (rule.advance at_) = rule.closes at_ ∧ rule.advance (rule.advance at_) = rule.advance at_ := by
  unfold Rrule.opens Rrule.closes Rrule.advance
  cases rule.freq with
  | weekly =>
    dsimp only
    obtain ⟨low,high⟩ := sinceWeekStart_bounds rule at_
    have start : sinceWeekStart rule (at_-sinceWeekStart rule at_+7*rule.interval) = 0 := by
      unfold sinceWeekStart weekday
      omega
    rw [start,still]
    omega
  | daily | monthly | yearly => simp [still]

end ChronosLedger.RuleExpansion
