import Mathlib.Order.Fin.Basic
import Mathlib.Data.Int.Order.Basic
import Mathlib.Data.List.Sort
import ChronosLedger.Library.Spans

namespace ChronosLedger
open Spans

-- A calendar day is its number and a wall clock reading is in microseconds. A
-- naive instant is what the two combine to, with no zone anywhere. Days and
-- instants are plain integers.
abbrev Time := Fin 86400000000

instance dayLasts : @NeZero Nat Zero.ofOfNat0 86400000000 := ⟨by decide⟩

def clock (hour minute : Nat) : Time := Fin.ofNat 86400000000 (hour*3600000000+minute*60000000)

-- Windows that examples are about.
theorem five_to_seven : clock 7 0 ≠ clock 5 0 := by decide
theorem nine_to_ten : clock 10 0 ≠ clock 9 0 := by decide
theorem nine_to_eleven : clock 11 0 ≠ clock 9 0 := by decide
theorem nine_to_noon : clock 12 0 ≠ clock 9 0 := by decide
theorem ten_to_noon : clock 12 0 ≠ clock 10 0 := by decide
theorem eleven_to_one : clock 13 0 ≠ clock 11 0 := by decide
theorem ten_at_night_to_six : clock 6 0 ≠ clock 22 0 := by decide

def combine (day : Int) (at_ : Time) : Int := day*86400000000+at_.val
def midnight (day : Int) : Int := day*86400000000
def dateOf (i : Int) : Int := i/86400000000
def timeOf (i : Int) : Time := Fin.ofNat 86400000000 (i % 86400000000).toNat

-- date.isoformat and time.isoformat, which are also what str gives. A day's
-- number is its proleptic ordinal, 1 for the first of January of year 1.
def digits (width : Nat) (n : Int) : String :=
  String.ofList (List.replicate (width-(toString n).length) '0') ++ toString n

def isoDate (day : Int) : String :=
  let shifted := day+305
  let era := shifted/146097
  let ofEra := shifted-era*146097
  let yearOfEra := (ofEra-ofEra/1460+ofEra/36524-ofEra/146096)/365
  let ofYear := ofEra-(365*yearOfEra+yearOfEra/4-yearOfEra/100)
  let fromMarch := (5*ofYear+2)/153
  let month := if fromMarch < 10 then fromMarch+3 else fromMarch-9
  let year := yearOfEra+era*400+(if month ≤ 2 then 1 else 0)
  digits 4 year ++ "-" ++ digits 2 month ++ "-" ++ digits 2 (ofYear-(153*fromMarch+2)/5+1)

def isoTime (at_ : Time) : String :=
  let whole := digits 2 (at_.val/3600000000 : Nat) ++ ":" ++ digits 2 (at_.val/60000000%60 : Nat) ++ ":" ++
    digits 2 (at_.val/1000000%60 : Nat)
  if at_.val%1000000 = 0 then whole else whole ++ "." ++ digits 6 (at_.val%1000000 : Nat)

-- An end earlier than the start runs past midnight into the next date.
def windowSpan (day : Int) (start finish : Time) : Int × Int :=
  let endsOn := if finish < start then day+1 else day
  (combine day start,combine endsOn finish)

def lastDate (day : Int) (start finish : Time) : Int :=
  if finish < start then day+1 else day

theorem combine_date (day : Int) (at_ : Time) : dateOf (combine day at_) = day := by
  have bound := at_.isLt
  simp only [dateOf,combine]
  omega

theorem combine_split (i : Int) : combine (dateOf i) (timeOf i) = i := by
  have low := Int.emod_nonneg i (show (86400000000 : Int) ≠ 0 by decide)
  have high := Int.emod_lt_of_pos i (show (0 : Int) < 86400000000 by decide)
  have small : (i % 86400000000).toNat % 86400000000 = (i % 86400000000).toNat := Nat.mod_eq_of_lt (by omega)
  simp only [combine,dateOf,timeOf,Fin.val_ofNat,small]
  omega

theorem combine_bounds (day : Int) (at_ : Time) : midnight day ≤ combine day at_ ∧ combine day at_ < midnight (day+1) := by
  have bound := at_.isLt
  simp only [midnight,combine]
  omega

theorem span_opens (day : Int) (start finish : Time) :
    midnight day ≤ (windowSpan day start finish).1 ∧ (windowSpan day start finish).1 < midnight (day+1) :=
  combine_bounds _ _

theorem span_lastDate (day : Int) (start finish : Time) :
    (windowSpan day start finish).2 = combine (lastDate day start finish) finish := by
  simp only [windowSpan,lastDate]

theorem lastDate_bounds (day : Int) (start finish : Time) :
    day ≤ lastDate day start finish ∧ lastDate day start finish ≤ day+1 := by
  unfold lastDate; split <;> omega

theorem span_closes (day : Int) (start finish : Time) :
    (windowSpan day start finish).2 < midnight (lastDate day start finish+1) := by
  rw [span_lastDate]
  exact (combine_bounds _ _).2

theorem span_ordered (day : Int) (start finish : Time) :
    (windowSpan day start finish).1 ≤ (windowSpan day start finish).2 := by
  have left := start.isLt
  have right := finish.isLt
  simp only [windowSpan,combine,Fin.lt_def]
  split <;> omega

theorem span_proper {start finish : Time} (proper : finish ≠ start) (day : Int) :
    (windowSpan day start finish).1 < (windowSpan day start finish).2 := by
  have left := start.isLt
  have right := finish.isLt
  have values : finish.val ≠ start.val := fun same => proper (Fin.ext same)
  simp only [windowSpan,combine,Fin.lt_def]
  split <;> omega

-- Under a day long, so a slot never sits on its own neighbour at one window.
theorem span_short (day : Int) (start finish : Time) :
    (windowSpan day start finish).2 < (windowSpan day start finish).1+86400000000 := by
  have left := start.isLt
  have right := finish.isLt
  simp only [windowSpan,combine,Fin.lt_def]
  split <;> omega

theorem midnight_lt {a b : Int} : midnight a < midnight b ↔ a < b := by simp only [midnight]; omega
theorem midnight_le {a b : Int} : midnight a ≤ midnight b ↔ a ≤ b := by simp only [midnight]; omega

-- Two windows meet only when their dates are at most one apart. Every three
-- date test of the program (the day and the two either side) rests on this.
theorem meets_near {d e : Int} {s f t g : Time} (met : Meets (windowSpan d s f) (windowSpan e t g)) :
    e-1 ≤ d ∧ d ≤ e+1 := by
  have one := span_opens d s f
  have two := span_opens e t g
  have three := lt_of_lt_of_le (span_closes d s f) (midnight_le.mpr (Int.add_le_add_right (lastDate_bounds d s f).2 1))
  have four := lt_of_lt_of_le (span_closes e t g) (midnight_le.mpr (Int.add_le_add_right (lastDate_bounds e t g).2 1))
  have left := midnight_lt.mp (lt_of_le_of_lt one.1 (lt_trans met.1 four))
  have right := midnight_lt.mp (lt_of_le_of_lt two.1 (lt_trans met.2 three))
  omega

theorem meets_neighbour {d : Int} {s f t g : Time} (met : Meets (windowSpan d s f) (windowSpan (d+1) t g)) : f < s := by
  by_contra late
  have closes := span_closes d s f
  have opens := span_opens (d+1) t g
  simp only [lastDate,late,if_false] at closes
  exact absurd met.2 (not_lt.mpr (le_of_lt (lt_of_lt_of_le closes opens.1)))

theorem span_apart {d e : Int} (different : d ≠ e) (start finish : Time) :
    ¬ Meets (windowSpan d start finish) (windowSpan e start finish) := by
  intro met
  have near := meets_near met
  have one := span_short d start finish
  have two := span_short e start finish
  simp only [Meets,windowSpan,combine] at met one two
  omega

-- A rule and the date it starts from stand for a fixed set of dates. Expanding
-- the rule text is dateutil's work, so the set is a parameter; `firstHit` is the
-- first date the rule gives when it starts on a date.
structure Recurrence where
  produces : String → Int → Int → Bool
  firstHit : String → Int → Option Int
  firstHit_least : ∀ rule from_ hit, firstHit rule from_ = some hit →
    from_ ≤ hit ∧ produces rule from_ hit = true ∧ ∀ day, from_ ≤ day → day < hit → produces rule from_ day = false
  firstHit_none : ∀ rule from_, firstHit rule from_ = none → ∀ day, from_ ≤ day → produces rule from_ day = false

def datesBetween (first last : Int) : List Int :=
  (List.range (last+1-first).toNat).map (fun n : Nat => first+(n : Int))

theorem mem_datesBetween {first last day : Int} : day ∈ datesBetween first last ↔ first ≤ day ∧ day ≤ last := by
  simp only [datesBetween,List.mem_map,List.mem_range]
  constructor
  · rintro ⟨n,bound,rfl⟩; omega
  · rintro ⟨low,high⟩
    exact ⟨(day-first).toNat,by omega,by omega⟩

theorem datesBetween_ordered (first last : Int) : (datesBetween first last).Pairwise (· < ·) := by
  exact List.pairwise_map.mpr (List.pairwise_lt_range.imp (fun less => by omega))

def dayCodes : List String := ["MO","TU","WE","TH","FR","SA","SU"]
def weeklyRule (weekday : Nat) : String := "FREQ=WEEKLY;BYDAY=" ++ dayCodes.getD (weekday-1) ""

-- 1 for Monday to 7 for Sunday, as isoweekday counts them.
def isoWeekday (day : Int) : Nat := ((day+6)%7).toNat+1

-- The two commonest rules, every day and one weekday, as dateutil expands them.
-- It knows no other rule, and is here for concrete runs.
def plainProduces (rule : String) (dtstart day : Int) : Bool :=
  decide (dtstart ≤ day) && (rule = "FREQ=DAILY" || rule = weeklyRule (isoWeekday day))

def plainRules : Recurrence where
  produces := plainProduces
  firstHit := fun rule from_ => (datesBetween from_ (from_+6)).find? (plainProduces rule from_)
  firstHit_least := by
    intro rule from_ hit first
    obtain ⟨hits,before,after,listed,none⟩ := List.find?_eq_some_iff_append.mp first
    have ordered := datesBetween_ordered from_ (from_+6)
    have range : hit ∈ datesBetween from_ (from_+6) := List.mem_of_find?_eq_some first
    obtain ⟨low,high⟩ := mem_datesBetween.mp range
    refine ⟨low,hits,?_⟩
    intro day start early
    have member : day ∈ datesBetween from_ (from_+6) := mem_datesBetween.mpr ⟨start,by omega⟩
    rw [listed] at member ordered
    rcases List.mem_append.mp member with left | right
    · simpa using none day left
    · rcases List.mem_cons.mp right with rfl | later
      · omega
      · have greater := (List.pairwise_cons.mp (List.pairwise_append.mp ordered).2.1).1 day later
        omega
  firstHit_none := by
    intro rule from_ none day start
    have period : plainProduces rule from_ (from_+(day-from_)%7) = false := by
      simpa using List.find?_eq_none.mp none _ (mem_datesBetween.mpr ⟨by omega,by omega⟩)
    have same : isoWeekday (from_+(day-from_)%7) = isoWeekday day := by unfold isoWeekday; omega
    have early : from_ ≤ from_+(day-from_)%7 := by omega
    simpa [plainProduces,same,early,start] using period

variable (cal : Recurrence)

def occurrences (rule : String) (dtstart first last : Int) : List Int :=
  let first := max first dtstart
  if first > last then [] else (datesBetween first last).filter (cal.produces rule dtstart)

def occursOn (rule : String) (dtstart day : Int) : Bool := !(occurrences cal rule dtstart day day).isEmpty

def firstOccurrence (rule : String) (onOrAfter : Int) : Option Int := cal.firstHit rule onOrAfter

-- The fixed set of dates, with no range asked about.
def Falls (rule : String) (dtstart day : Int) : Prop := dtstart ≤ day ∧ cal.produces rule dtstart day = true

theorem mem_occurrences {rule : String} {dtstart first last day : Int} :
    day ∈ occurrences cal rule dtstart first last ↔ Falls cal rule dtstart day ∧ first ≤ day ∧ day ≤ last := by
  unfold occurrences Falls
  dsimp only
  split
  · simp only [List.not_mem_nil,false_iff]
    rintro ⟨⟨start,_⟩,low,high⟩
    have := max_le low start
    omega
  · simp only [List.mem_filter,mem_datesBetween,max_le_iff]
    tauto

theorem occurrences_ordered (rule : String) (dtstart first last : Int) :
    (occurrences cal rule dtstart first last).Pairwise (· < ·) := by
  unfold occurrences
  dsimp only
  split
  · exact .nil
  · exact (datesBetween_ordered _ _).filter _

theorem occursOn_exact {rule : String} {dtstart day : Int} : occursOn cal rule dtstart day = true ↔ Falls cal rule dtstart day := by
  unfold occursOn
  rw [Bool.not_eq_true',List.isEmpty_eq_false_iff_exists_mem]
  simp only [mem_occurrences]
  constructor
  · rintro ⟨d,falls,low,high⟩
    have : d = day := by omega
    exact this ▸ falls
  · intro falls
    exact ⟨day,falls,le_refl _,le_refl _⟩

end ChronosLedger
