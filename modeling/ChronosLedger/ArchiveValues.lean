import ChronosLedger.IsoForms
import ChronosLedger.Library.JsonRoundTrip
import ChronosLedger.Library.Decimals

namespace ChronosLedger.Portability
open JsonText

-- The value of every enumeration's member is its name.
inductive Kind where
  | enumeration (members : List String)
  | boolean
  | dateTime
  | time
  | date
  | numeric (precision scale : Nat)
  | integer
  | bigInteger
  | string (length : Nat)
  | text
  deriving DecidableEq, Repr

structure Column where
  name : String
  kind : Kind
  nullable : Bool
  deriving DecidableEq, Repr

-- A connection: PostgreSQL shows an instant with the offset its session's zone
-- has then, and folds case by its locale.
inductive Dialect where
  | sqlite
  | postgresql (zone : Int → Int) (lower : String → String)

-- A stored value. SQLite keeps truth as a number, a decimal as a double and a
-- moment as the wall time it was given; PostgreSQL keeps an instant and whole
-- units of the column's scale.
inductive Cell where
  | null
  | int (n : Int)
  | bool (b : Bool)
  | text (s : String)
  | real (x : ℚ)
  | numeric (units : Int)
  | date (day : Int)
  | time (at_ : Time)
  | wall (moment : Int)
  | instant (moment : Int)
  deriving DecidableEq

-- What Python has of it: a moment with no zone, or with its offset.
inductive Value where
  | none
  | member (name : String)
  | bool (b : Bool)
  | int (n : Int)
  | text (s : String)
  | date (day : Int)
  | time (at_ : Time)
  | naive (wall : Int)
  | aware (wall offset : Int)
  | decimal (d : Decimals.Decimal)
  deriving DecidableEq

inductive Problem where
  | isNull
  | unexpected (found expected : String)
  | aBoolean
  | noOffset
  | unreadable
  deriving DecidableEq, Repr

def InRange (moment : Int) : Prop := 1 ≤ dateOf moment ∧ dateOf moment ≤ maxOrdinal

instance (moment : Int) : Decidable (InRange moment) := inferInstanceAs (Decidable (_ ∧ _))

def isoUtc (moment : Int) : Option Scalar :=
  if InRange moment then some (.str (isoMoment moment ++ "+00:00")) else none

-- A decimal passes through its own str, which it reads back from.
def encode (kind : Kind) : Value → Option Scalar
  | .none => some .null
  | .member name => some (.str name)
  | .naive wall => isoUtc wall
  | .aware wall offset => isoUtc (wall-offset)
  | .time at_ => some (.str (isoMicros at_))
  | .date day => some (.str (isoDate day))
  | .decimal d =>
    match kind with
    | .numeric _ scale => some (.str (String.ofList (Decimals.text (Decimals.quantize d scale))))
    | _ => none
  | .bool b => some (.bool b)
  | .int n => some (.int n)
  | .text s => some (.str s)

def typeName : Json → String
  | .scalar .null => "NoneType"
  | .scalar (.bool _) => "bool"
  | .scalar (.int _) => "int"
  | .scalar (.str _) => "str"
  | .float _ => "float"
  | .arr _ => "list"
  | .obj _ => "dict"

def expectStr : Json → Except Problem String
  | .scalar (.str s) => .ok s
  | other => .error (.unexpected (typeName other) "str")

def reads {α : Type} (read : Option α) (value : α → Value) : Except Problem Value :=
  match read with
  | some held => .ok (value held)
  | none => .error .unreadable

def toUtc : Int × Option Int → Except Problem Value
  | (_,none) => .error .noOffset
  | (wall,some offset) => if InRange (wall-offset) then .ok (.aware (wall-offset) 0) else .error .unreadable

def decode (column : Column) (value : Json) : Except Problem Value :=
  match value with
  | .scalar .null => if column.nullable then .ok .none else .error .isNull
  | value =>
    match column.kind with
    | .enumeration members => do
      let s ← expectStr value
      if s ∈ members then .ok (.member s) else .error .unreadable
    | .boolean =>
      match value with
      | .scalar (.bool b) => .ok (.bool b)
      | other => .error (.unexpected (typeName other) "bool")
    | .dateTime => do
      let s ← expectStr value
      match readMoment s.toList with
      | some read => toUtc read
      | none => .error .unreadable
    | .time => do
      let s ← expectStr value
      reads (readTime s.toList) .time
    | .date => do
      let s ← expectStr value
      reads (readDate s.toList) .date
    | .numeric _ _ => do
      let s ← expectStr value
      reads (Decimals.read s.toList) .decimal
    | .integer | .bigInteger =>
      match value with
      | .scalar (.int n) => .ok (.int n)
      | .scalar (.bool _) => .error .aBoolean
      | other => .error (.unexpected (typeName other) "int")
    | .string _ | .text => do
      let s ← expectStr value
      .ok (.text s)

def plain (s : String) : Bool := s.toList.all (fun c => c.toNat ≠ 0)

def fitsIn (bits : Nat) (n : Int) : Bool := -2^(bits-1) ≤ n ∧ n < 2^(bits-1)

-- What the driver and the column make of a value, if they take it. An offset is
-- lost on SQLite. PostgreSQL rounds to the scale, cuts blanks beyond the width
-- and takes no other text that is too wide, nor one with a zero character.
def store (d : Dialect) (kind : Kind) (value : Value) : Option Cell :=
  match d,kind,value with
  | _,_,.none => some .null
  | _,.enumeration members,.member name => if name ∈ members then some (.text name) else none
  | .sqlite,.boolean,.bool b => some (.int (if b then 1 else 0))
  | .postgresql _ _,.boolean,.bool b => some (.bool b)
  | .sqlite,.dateTime,.aware wall _ => some (.wall wall)
  | .postgresql _ _,.dateTime,.aware wall offset => some (.instant (wall-offset))
  | _,.time,.time at_ => some (.time at_)
  | _,.date,.date day => some (.date day)
  | .sqlite,.numeric _ _,.decimal d => some (.real (Decimals.double d.value))
  | .postgresql _ _,.numeric precision scale,.decimal d =>
    if (Decimals.halfAway (d.value*10^scale)).natAbs < 10^precision then some (.numeric (Decimals.halfAway (d.value*10^scale))) else none
  | .sqlite,.integer,.int n => if fitsIn 64 n then some (.int n) else none
  | .postgresql _ _,.integer,.int n => if fitsIn 32 n then some (.int n) else none
  | _,.bigInteger,.int n => if fitsIn 64 n then some (.int n) else none
  | .sqlite,.string _,.text s => some (.text s)
  | .postgresql _ _,.string length,.text s =>
    if plain s = false then none
    else if s.length ≤ length then some (.text s)
    else if (s.toList.drop length).all (fun c => c = ' ') then some (.text (String.ofList (s.toList.take length)))
    else none
  | .sqlite,.text,.text s => some (.text s)
  | .postgresql _ _,.text,.text s => if plain s then some (.text s) else none
  | _,_,_ => none

-- What the driver hands back. SQLite's double is written at the column's scale.
def fetch (d : Dialect) (kind : Kind) (cell : Cell) : Option Value :=
  match d,kind,cell with
  | _,_,.null => some .none
  | _,.enumeration members,.text name => if name ∈ members then some (.member name) else none
  | .sqlite,.boolean,.int n => some (.bool (decide (n ≠ 0)))
  | .postgresql _ _,.boolean,.bool b => some (.bool b)
  | .sqlite,.dateTime,.wall moment => some (.naive moment)
  | .postgresql zone _,.dateTime,.instant moment => some (.aware (moment+zone moment) (zone moment))
  | _,.time,.time at_ => some (.time at_)
  | _,.date,.date day => some (.date day)
  | .sqlite,.numeric _ scale,.real x =>
    some (.decimal (Decimals.scaled scale (decide (x < 0)) (Decimals.halfEven (|x| * 10^scale)).toNat))
  | .postgresql _ _,.numeric _ scale,.numeric units => some (.decimal (Decimals.scaled scale (decide (units < 0)) units.natAbs))
  | _,.integer,.int n => some (.int n)
  | _,.bigInteger,.int n => some (.int n)
  | _,.string _,.text s => some (.text s)
  | _,.text,.text s => some (.text s)
  | _,_,_ => none

def written (d : Dialect) (column : Column) (cell : Cell) : Option Scalar := (fetch d column.kind cell).bind (encode column.kind)

-- What a column can hold. Neither the width of a text nor that of an integer
-- binds SQLite.
def Holds (d : Dialect) (column : Column) (cell : Cell) : Prop :=
  match d,column.kind,cell with
  | _,_,.null => column.nullable = true
  | _,.enumeration members,.text name => name ∈ members
  | .sqlite,.boolean,.int n => n = 0 ∨ n = 1
  | .postgresql _ _,.boolean,.bool _ => True
  | .sqlite,.dateTime,.wall moment => InRange moment
  | .postgresql _ _,.dateTime,.instant moment => InRange moment
  | _,.time,.time _ => True
  | _,.date,.date day => 1 ≤ day ∧ day ≤ maxOrdinal
  | .sqlite,.numeric precision scale,.real x => ∃ n : Int, n.natAbs < 10^precision ∧ x = Decimals.double (n/10^scale)
  | .postgresql _ _,.numeric precision _,.numeric units => units.natAbs < 10^precision
  | .sqlite,.integer,.int n => fitsIn 64 n = true
  | .postgresql _ _,.integer,.int n => fitsIn 32 n = true
  | _,.bigInteger,.int n => fitsIn 64 n = true
  | .sqlite,.string _,.text _ => True
  | .postgresql _ _,.string length,.text s => plain s = true ∧ s.length ≤ length
  | .sqlite,.text,.text _ => True
  | .postgresql _ _,.text,.text s => plain s = true
  | _,_,_ => False

end ChronosLedger.Portability
