import ChronosLedger.CivilDates
import ChronosLedger.Library.Steppings

namespace ChronosLedger.RuleExpansion
open Steppings

def maxRuleLength : Nat := 255
def frequencies : List String := ["DAILY","WEEKLY","MONTHLY","YEARLY"]
def withinADay : List String := ["BYHOUR","BYMINUTE","BYSECOND"]

inductive Frequency where
  | yearly | monthly | weekly | daily
  deriving DecidableEq, Repr

-- A rule as dateutil reads it. `weekStart` counts from Monday; `until_` is the
-- naive instant of UNTIL. No number is bounded.
structure Rrule where
  freq : Frequency
  interval : Int
  weekStart : Int
  count : Option Int
  until_ : Option Int
  deriving DecidableEq, Repr

-- What dateutil does with the text: rrulestr, asked once FREQ is one of the four,
-- and the dates of one step that match the BY parts (the ones left out follow
-- from dtstart). Matching and BYSETPOS pick dates and put none in another order.
structure Dateutil where
  rrulestr : String → Except String Rrule
  matching : String → Int → List Int → List Int
  matching_sublist : ∀ rule dtstart days, (matching rule dtstart days).Sublist days

def partOf (part : List Char) : Except String (String × String) :=
  let name := part.takeWhile (· ≠ '=')
  let setting := (part.dropWhile (· ≠ '=')).tail
  if name = [] ∨ setting = [] then .error s!"rrule part '{String.ofList part}' is not NAME=VALUE"
  else .ok (String.ofList name,String.ofList setting)

-- A name given twice keeps its last setting.
def settingOf (parts : List (String × String)) (name : String) : Option String := parts.reverse.lookup name

def withoutName (rule : String) : String :=
  if "RRULE:".toList.isPrefixOf rule.toList then String.ofList (rule.toList.drop 6) else rule

def check (passed : Bool) (message : String) : Except String Unit := if passed then .ok () else .error message

variable (dateutil : Dateutil) (strip upper : String → String)

def normalize (value : String) : Except String String := do
  let rule := withoutName (upper (strip value))
  check (rule ≠ "") "rrule must not be empty"
  check (rule.length ≤ maxRuleLength) s!"rrule must not be longer than {maxRuleLength} characters"
  check (rule.toList.all (fun c => c ∉ ['\r','\n',':'])) ("rrule is the value of one RRULE property, such as FREQ=WEEKLY;BYDAY=MO; " ++
    "DTSTART and other properties are not part of it")
  let parts ← (rule.toList.splitOn ';').mapM partOf
  check (frequencies.any (fun name => settingOf parts "FREQ" = some name)) "rrule FREQ must be DAILY, WEEKLY, MONTHLY or YEARLY"
  let within := withinADay.filter (fun name => (settingOf parts name).isSome)
  let named := String.intercalate ", " within
  check within.isEmpty s!"rrule must not repeat within a day ({named})"
  check (((settingOf parts "UNTIL").getD "").toList.getLast? ≠ some 'Z') ("rrule UNTIL must be a local date or date-time, without Z: " ++
    "slot times are wall clock in ORG_TIMEZONE")
  match dateutil.rrulestr rule with
  | .error raised => .error s!"rrule is not a valid RFC 5545 rule: {raised}"
  | .ok _ => .ok rule

-- date.max, the last day of year 9999.
def maxDay : Int := 3652059

def weekday (day : Int) : Int := (day+6)%7

def sinceWeekStart (rule : Rrule) (day : Int) : Int := (weekday day-rule.weekStart)%7

def monthOpens (month : Int) : Int := ordinal (month/12) (month%12+1) 1

-- Where a step stands: a year, a month counted from year 0, or a date.
def Rrule.starts (rule : Rrule) (dtstart : Int) : Int :=
  match rule.freq with
  | .yearly => civilYear dtstart
  | .monthly => 12*civilYear dtstart+(civilMonth dtstart-1)
  | .weekly | .daily => dtstart

def Rrule.opens (rule : Rrule) (at_ : Int) : Int :=
  match rule.freq with
  | .yearly => ordinal at_ 1 1
  | .monthly => monthOpens at_
  | .weekly | .daily => at_

def Rrule.closes (rule : Rrule) (at_ : Int) : Int :=
  match rule.freq with
  | .yearly => ordinal (at_+1) 1 1-1
  | .monthly => monthOpens (at_+1)-1
  | .weekly => at_-sinceWeekStart rule at_+6
  | .daily => at_

-- A week is stepped from its first day, wherever in it the step stood.
def Rrule.advance (rule : Rrule) (at_ : Int) : Int :=
  match rule.freq with
  | .weekly => at_-sinceWeekStart rule at_+7*rule.interval
  | .yearly | .monthly | .daily => at_+rule.interval

def Rrule.days (rule : Rrule) (at_ : Int) : List Int := datesBetween (max 1 (rule.opens at_)) (min maxDay (rule.closes at_))

def Rrule.passed (rule : Rrule) (day : Int) : Bool := rule.until_.any (fun last => decide (last < midnight day))

-- What the generator yields of the dates of one step, and the count left unless
-- it has returned.
def yields (rule : Rrule) (dtstart : Int) : Option Int → List Int → List Int × Option (Option Int)
  | count,[] => ([],some count)
  | count,day :: rest =>
    if rule.passed day then ([],none)
    else if day < dtstart then yields rule dtstart count rest
    else match count with
    | none =>
      let (given,left) := yields rule dtstart none rest
      (day :: given,left)
    | some n =>
      if n-1 < 0 then ([],none)
      else
        let (given,left) := yields rule dtstart (some (n-1)) rest
        (day :: given,left)

-- Who takes the dates: `between` and `after`.
structure Consumer (κ β : Type) where
  take : κ → Int → Turn κ (Except String β)
  done : κ → Except String β

def between (after before : Int) : Consumer (Bool × List Int) (List Int) where
  take := fun (started,l) day =>
    if day > before then .stops (.ok l)
    else if started = true then .goes (true,l ++ [day])
    else if day ≥ after then .goes (true,l ++ [day])
    else .goes (false,l)
  done := fun (_,l) => .ok l

def afterOrAt (day : Int) : Consumer Unit (Option Int) where
  take := fun _ hit => if hit ≥ day then .stops (.ok (some hit)) else .goes ()
  done := fun _ => .ok none

-- Which of its errors stepping below the calendar gives depends on FREQ.
def outOfRange : String := "year 0 is out of range"

section
variable {κ β : Type} (consumer : Consumer κ β)

def turnOn (rule : Rrule) (dtstart : Int) (days : List Int) (count : Option Int) (k : κ) : Turn (Option Int × κ) (Except String β) :=
  let (given,left) := yields rule dtstart count days
  (feed consumer.take given k).andThen (fun k =>
    match left with
    | some count => .goes (count,k)
    | none => .stops (consumer.done k))

def stepOn (rule : Rrule) (at_ : Int) (count : Option Int) (k : κ) : Turn (Int × Option Int × κ) (Except String β) :=
  let next := rule.advance at_
  if rule.opens next > maxDay then .stops (consumer.done k)
  else if rule.closes next < 1 then .stops (.error outOfRange)
  else .goes (next,count,k)

def turnOf (text : String) (rule : Rrule) (dtstart : Int) (s : Int × Option Int × κ) : Turn (Int × Option Int × κ) (Except String β) :=
  (turnOn consumer rule dtstart (dateutil.matching text dtstart (rule.days s.1)) s.2.1 s.2.2).andThen
    (fun ended => stepOn consumer rule s.1 ended.1 ended.2)

def expand (text : String) (rule : Rrule) (dtstart : Int) (k : κ) (fuel : Nat) : Option (Except String β) :=
  loop (turnOf dateutil consumer text rule dtstart) fuel (rule.starts dtstart,rule.count,k)

end

def occurrences (rule : String) (dtstart first last : Int) (fuel : Nat) : Option (Except String (List Int)) :=
  let first := max first dtstart
  if first > last then some (.ok []) else
  match dateutil.rrulestr rule with
  | .error raised => some (.error raised)
  | .ok parsed => expand dateutil (between first last) rule parsed dtstart (false,[]) fuel

def occursOn (rule : String) (dtstart day : Int) (fuel : Nat) : Option (Except String Bool) :=
  (occurrences dateutil rule dtstart day day fuel).map (fun ended => ended.map (fun dates => !dates.isEmpty))

def firstOccurrence (rule : String) (onOrAfter : Int) (fuel : Nat) : Option (Except String (Option Int)) :=
  match dateutil.rrulestr rule with
  | .error raised => some (.error raised)
  | .ok parsed => expand dateutil (afterOrAt onOrAfter) rule parsed onOrAfter () fuel

def anchor (rule : String) (onOrAfter : Int) (fuel : Nat) : Option (Except String Int) :=
  (firstOccurrence dateutil rule onOrAfter fuel).map (fun ended => ended.bind (fun hit =>
    match hit with
    | some hit => .ok hit
    | none => .error s!"rrule produces no date on or after {isoDate onOrAfter}"))

end ChronosLedger.RuleExpansion
