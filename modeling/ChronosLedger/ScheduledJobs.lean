import ChronosLedger.Zones
import Mathlib.Data.List.Sort

namespace ChronosLedger.Scheduled

-- WEBHOOK_DELIVERY_INTERVAL_SECONDS is checked when the settings are read.
structure Interval where
  seconds : Nat
  positive : 0 < seconds
  deriving DecidableEq, Repr

structure Settings where
  changeFeedEnabled : Bool
  webhookDeliveryIntervalSeconds : Interval
  deriving DecidableEq, Repr

instance hoursLast : @NeZero Nat Zero.ofOfNat0 24 := ⟨by decide⟩
instance minutesLast : @NeZero Nat Zero.ofOfNat0 60 := ⟨by decide⟩

inductive Moments where
  | daily (hour : Fin 24) (minute : Fin 60)
  | interval (grid : Interval)
  | webhookInterval
  deriving DecidableEq, Repr

-- datetime.fromtimestamp(0), as a naive instant in UTC.
def epoch : Int := midnight 719163

def days (first last : Int) : List Int := (List.range (last-first+1).toNat).map (fun n => first+Int.ofNat n)

def momentOf (zone : Zone) (at_ : Time) (day : Int) : Int := zone.utcOf (combine day at_)

def dailyAt (zone : Zone) (at_ : Time) (previous current : Int) : List Int :=
  (days (dateOf (zone.localOf previous)) (dateOf (zone.localOf current))).filterMap (fun day =>
    if previous < momentOf zone at_ day ∧ momentOf zone at_ day ≤ current then some (momentOf zone at_ day) else none)

-- int() drops the fraction of the timestamp, toward zero.
def markBefore (interval : Interval) (current : Int) : Int :=
  epoch+(current-epoch).tdiv 1000000/interval.seconds*interval.seconds*1000000

def every (interval : Interval) (previous current : Int) : List Int :=
  if previous < markBefore interval current ∧ markBefore interval current ≤ current then [markBefore interval current] else []

-- Never, while the change feed is off.
def everyWebhookInterval (settings : Settings) (previous current : Int) : List Int :=
  if settings.changeFeedEnabled then every settings.webhookDeliveryIntervalSeconds previous current else []

def Moments.within (moments : Moments) (zone : Zone) (settings : Settings) (previous current : Int) : List Int :=
  match moments with
  | .daily hour minute => dailyAt zone (clock hour minute) previous current
  | .interval grid => every grid previous current
  | .webhookInterval => everyWebhookInterval settings previous current

structure Job where
  name : String
  moments : Moments
  deriving DecidableEq, Repr

structure JobTable where
  jobs : List Job
  names : (jobs.map Job.name).Nodup

-- In the order they run when two fall on the same instant.
def jobs : JobTable where
  jobs := [⟨"nightly_ledger_gen",.daily 23 0⟩,⟨"refresh_token_purge",.daily 3 0⟩,⟨"guest_retention_purge",.daily 3 30⟩,
    ⟨"idempotency_purge",.daily 3 45⟩,⟨"guest_overstay_notice",.interval ⟨300,by decide⟩⟩,⟨"webhook_delivery",.webhookInterval⟩]
  names := by decide

def JobTable.rank (table : JobTable) (job : Job) : Nat := (table.jobs.map Job.name).idxOf job.name

def Before (table : JobTable) (one two : Int × Job) : Prop := one.1 < two.1 ∨ one.1 = two.1 ∧ table.rank one.2 ≤ table.rank two.2

instance (table : JobTable) : DecidableRel (Before table) := fun _ _ => inferInstanceAs (Decidable (_ ∨ _))

def pairs (zone : Zone) (settings : Settings) (table : JobTable) (previous current : Int) : List (Int × Job) :=
  table.jobs.flatMap (fun job => (job.moments.within zone settings previous current).map (fun moment => (moment,job)))

def dueJobs (zone : Zone) (settings : Settings) (table : JobTable) (previous current : Int) : Except String (List (Int × Job)) :=
  if current < previous then .error "current is before previous"
  else .ok ((pairs zone settings table previous current).insertionSort (Before table))

-- The clock stands still while a job runs, and never goes back.
structure Advance where
  clock : Int
  ran : List (Int × String)
  deriving DecidableEq, Repr

def advanceTo (s : Advance) (instant : Int) : Except String Advance :=
  if instant < s.clock then .error "the clock does not go backwards" else .ok {s with clock := instant}

def runJobs : Advance → List (Int × Job) → Except String Advance
  | s,[] => .ok s
  | s,(moment,job) :: rest =>
    match advanceTo s moment with
    | .error problem => .error problem
    | .ok s => runJobs {s with ran := s.ran ++ [(moment,job.name)]} rest

def runDueJobs (host : Bool) (zone : Zone) (settings : Settings) (table : JobTable) (clock previous current : Int) : Except String Advance :=
  if !host then .error "run_due_jobs needs CLOCK_MODE=host; the scheduler runs the jobs"
  else
    match dueJobs zone settings table previous current with
    | .error problem => .error problem
    | .ok due =>
      match runJobs ⟨clock,[]⟩ due with
      | .error problem => .error problem
      | .ok s => advanceTo s current

end ChronosLedger.Scheduled
