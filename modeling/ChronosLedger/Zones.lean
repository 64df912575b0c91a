import ChronosLedger.Calendar

namespace ChronosLedger

-- The instant a zone's offset from UTC changes at, and the offset from then on.
-- Both are in microseconds.
structure Jump where
  at_ : Int
  offset : Int
  deriving DecidableEq, Repr

-- Jumps come in order and further apart than the wall clock jumps.
def JumpsApart : Int → List Jump → Prop
  | _,[] => True
  | base,jump :: rest => (∀ next ∈ rest.head?, jump.at_+(jump.offset-base) ≤ next.at_ ∧ jump.at_+(base-jump.offset) ≤ next.at_) ∧
      JumpsApart jump.offset rest

-- A zone of the tz database. Its names hold no line break.
structure Zone where
  key : String
  base : Int
  jumps : List Jump
  apart : JumpsApart base jumps
  named : '\r' ∉ key.toList ∧ '\n' ∉ key.toList

def offsetAt (base : Int) : List Jump → Int → Int
  | [],_ => base
  | jump :: rest,instant => if jump.at_ ≤ instant then offsetAt jump.offset rest instant else base

-- The offset of a wall reading with fold 0: of two instants it reads so at, the
-- earlier, and the offset from before the jump where it is skipped.
def wallOffset (base : Int) : List Jump → Int → Int
  | [],_ => base
  | jump :: rest,wall => if jump.at_+max base jump.offset ≤ wall then wallOffset jump.offset rest wall else base

def Zone.localOf (zone : Zone) (instant : Int) : Int := instant+offsetAt zone.base zone.jumps instant
def Zone.utcOf (zone : Zone) (wall : Int) : Int := wall-wallOffset zone.base zone.jumps wall

end ChronosLedger
