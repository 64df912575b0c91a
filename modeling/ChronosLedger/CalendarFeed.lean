import Mathlib.Algebra.GroupWithZero.Nat
import ChronosLedger.CivilDates
import ChronosLedger.Tables
import ChronosLedger.Zones
import ChronosLedger.Library.Replacing

namespace ChronosLedger.CalendarSync
open Replacing

-- A text is its characters; the weight of one is its octets in UTF-8.
abbrev Text := List Char

def octets (text : Text) : Nat := (text.map Char.utf8Size).sum

def crlf : Text := ['\r','\n']

-- The backslash goes first, then what the backslashes are put before.
def escape (text : Text) : Text :=
  let marked := replace [','] ['\\',','] (replace [';'] ['\\',';'] (replace ['\\'] ['\\','\\'] text))
  replace ['\n'] ['\\','n'] (replace ['\r'] ['\\','n'] (replace crlf ['\\','n'] marked))

structure Folding where
  parts : List Text
  chunk : Text
  used : Nat
  budget : Nat
  deriving DecidableEq, Repr

def Folding.take (s : Folding) (character : Char) : Folding :=
  if s.budget < s.used+character.utf8Size then ⟨s.parts ++ [s.chunk],[character],character.utf8Size,74⟩
  else {s with chunk := s.chunk ++ [character],used := s.used+character.utf8Size}

-- The parts a content line is broken into.
def pieces (line : Text) : List Text :=
  if octets line ≤ 75 then [line]
  else
    let s := line.foldl Folding.take ⟨[],[],0,75⟩
    s.parts ++ [s.chunk]

def fold (line : Text) : Text := (crlf ++ [' ']).intercalate (pieces line)

-- strftime, of a date and of an instant in UTC.
def basicDate (day : Int) : String := digits 4 (civilYear day) ++ digits 2 (civilMonth day) ++ digits 2 (civilDay day)

def basicTime (at_ : Time) : String :=
  digits 2 (at_.val/3600000000 : Nat) ++ digits 2 (at_.val/60000000%60 : Nat) ++ digits 2 (at_.val/1000000%60 : Nat)

def stamp (instant : Int) : String := basicDate (dateOf instant) ++ "T" ++ basicTime (timeOf instant) ++ "Z"

def utcStamp (zone : Zone) (day : Int) (wall : Time) : String := stamp (zone.utcOf (combine day wall))

def stateName : DynamicState → String
  | .scheduled => "SCHEDULED"
  | .onLeave => "ON_LEAVE"
  | .proxySubstitute => "PROXY_SUBSTITUTE"
  | .lunch => "LUNCH"
  | .internalMeeting => "INTERNAL_MEETING"
  | .adhocEvent => "ADHOC_EVENT"

-- A ledger row with what its keys lead to.
structure Entry where
  row : DailyLedger
  activity : Activity
  room : Option Resource
  deriving DecidableEq, Repr

def calendarName (fullName : String) : String := "Chronos Timeline - " ++ fullName

def summary (entry : Entry) : String :=
  let titled := "[" ++ entry.activity.activityCode ++ "] " ++ entry.activity.activityTitle
  match entry.row.operationalState with
  | .proxySubstitute => titled ++ " (Proxy Assignment)"
  | .onLeave => titled ++ " [CANCELLED: Staff Absent]"
  | _ => titled

-- A row with no room shows what Python writes for none.
def location (entry : Entry) : String := "Room " ++ (entry.room.map Resource.code).getD "None"

def description (entry : Entry) : String := "Status: " ++ stateName entry.row.operationalState ++ " | Synchronized via Chronos Ledger."

-- DTSTART and DTEND, and the time the UID names: the day's own window, or the
-- whole day, whose end is the next date.
def whenLines (zone : Zone) (row : DailyLedger) : String × String × String :=
  match row.timeWindowStart,row.timeWindowEnd with
  | some starts,some ends =>
    ("DTSTART:" ++ utcStamp zone row.targetDate starts,
      "DTEND:" ++ utcStamp zone (dateOf (windowSpan row.targetDate starts ends).2) ends,basicTime starts)
  | _,_ => ("DTSTART;VALUE=DATE:" ++ basicDate row.targetDate,"DTEND;VALUE=DATE:" ++ basicDate (row.targetDate+1),"000000")

def uid (zone : Zone) (entry : Entry) : String :=
  "slot_" ++ basicDate entry.row.targetDate ++ "_" ++ entry.activity.activityCode ++ "_" ++ (whenLines zone entry.row).2.2 ++ "@chronos.internal"

def header (zone : Zone) (fullName : String) : List Text :=
  ["BEGIN:VCALENDAR".toList,"VERSION:2.0".toList,"PRODID:-//ChronosLedger Engine//Chronos 2026//EN".toList,
    "X-WR-CALNAME:".toList ++ escape (calendarName fullName).toList,"X-WR-TIMEZONE:".toList ++ zone.key.toList,"CALSCALE:GREGORIAN".toList]

def eventLines (zone : Zone) (writtenAt : Int) (entry : Entry) : List Text :=
  ["BEGIN:VEVENT".toList,"UID:".toList ++ escape (uid zone entry).toList,"DTSTAMP:".toList ++ (stamp writtenAt).toList,
    (whenLines zone entry.row).1.toList,(whenLines zone entry.row).2.1.toList,"SUMMARY:".toList ++ escape (summary entry).toList,
    "LOCATION:".toList ++ escape (location entry).toList,"DESCRIPTION:".toList ++ escape (description entry).toList,"END:VEVENT".toList]

def contentLines (zone : Zone) (fullName : String) (writtenAt : Int) (entries : List Entry) : List Text :=
  header zone fullName ++ entries.flatMap (eventLines zone writtenAt) ++ ["END:VCALENDAR".toList]

-- The rows a person's feed shows: the ones they lead or stand in for, or the ones
-- of what they are enrolled in, from a week back to thirty days ahead.
def isStaff (role : InstitutionalRole) : Bool := role = .staff || role = .orgAdmin || role = .unitAdmin

def shown (db : Database) (today : Int) (user : User) (row : DailyLedger) : Bool :=
  (if isStaff user.roleType then row.activeLeadId = some user.id || row.substituteLeadId = some user.id
    else db.enrollments.any (fun enrollment => enrollment.activityId = row.activityId && enrollment.memberId = user.id)) &&
    (today-7 ≤ row.targetDate && row.targetDate ≤ today+30)

def entriesFor (db : Database) (today : Int) (user : User) : List Entry :=
  (db.ledger.filter (shown db today user)).filterMap (fun row =>
    (db.activities.find? (fun activity => activity.id = row.activityId)).map (fun activity =>
      ⟨row,activity,row.resourceId.bind (fun id => db.resources.find? (fun resource => resource.id = id))⟩))

-- The link's token is the only credential; it stops with the account.
def subscriber (db : Database) (feedTokens : List (String × String)) (feedToken : String) : Option User :=
  db.users.find? (fun user => feedTokens.contains (user.id,feedToken) && !user.deactivated)

inductive FeedError where
  | feedNotFound
  deriving DecidableEq, Repr

def FeedError.statusCode : FeedError → Nat
  | .feedNotFound => 404

def FeedError.detail : FeedError → String
  | .feedNotFound => "Feed not found"

def response (zone : Zone) (fullName : String) (writtenAt : Int) (entries : List Entry) : Text :=
  crlf.intercalate ((contentLines zone fullName writtenAt entries).map fold)

def streamIcalendarFeed (db : Database) (feedTokens : List (String × String)) (zone : Zone) (now : Int) (feedToken : String) :
    Except FeedError Text :=
  match subscriber db feedTokens feedToken with
  | none => .error .feedNotFound
  | some user => .ok (response zone user.fullName now (entriesFor db (dateOf (zone.localOf now)) user))

end ChronosLedger.CalendarSync
