import ChronosLedger.ArchiveValues

namespace ChronosLedger.Portability
open JsonText

-- What a stored value says, whichever database holds it.
inductive Content where
  | null
  | label (name : String)
  | truth (b : Bool)
  | moment (at_ : Int)
  | time (at_ : Time)
  | date (day : Int)
  | units (n : Int)
  | number (n : Int)
  | text (s : String)
  deriving DecidableEq, Repr

def Kind.scale : Kind → Nat
  | .numeric _ scale => scale
  | _ => 0

def Content.Of (column : Column) : Content → Prop
  | .null => column.nullable = true
  | .label name => ∃ members, column.kind = .enumeration members ∧ name ∈ members
  | .truth _ => column.kind = .boolean
  | .moment at_ => column.kind = .dateTime ∧ InRange at_
  | .time _ => column.kind = .time
  | .date day => column.kind = .date ∧ 1 ≤ day ∧ day ≤ maxOrdinal
  | .units n => ∃ precision scale, column.kind = .numeric precision scale ∧ n.natAbs < 10^precision
  | .number n => (column.kind = .integer ∨ column.kind = .bigInteger) ∧ fitsIn 64 n = true
  | .text _ => column.kind = .text ∨ ∃ length, column.kind = .string length

def Content.cell (d : Dialect) (kind : Kind) : Content → Cell
  | .null => .null
  | .label name => .text name
  | .truth b => match d with
    | .sqlite => .int (if b then 1 else 0)
    | .postgresql _ _ => .bool b
  | .moment at_ => match d with
    | .sqlite => .wall at_
    | .postgresql _ _ => .instant at_
  | .time at_ => .time at_
  | .date day => .date day
  | .units n => match d with
    | .sqlite => .real (Decimals.double (n/10^kind.scale))
    | .postgresql _ _ => .numeric n
  | .number n => .int n
  | .text s => .text s

def Content.value (kind : Kind) : Content → Value
  | .null => .none
  | .label name => .member name
  | .truth b => .bool b
  | .moment at_ => .aware at_ 0
  | .time at_ => .time at_
  | .date day => .date day
  | .units n => .decimal (Decimals.scaled kind.scale (decide (n < 0)) n.natAbs)
  | .number n => .int n
  | .text s => .text s

def Content.form (kind : Kind) : Content → Scalar
  | .null => .null
  | .label name => .str name
  | .truth b => .bool b
  | .moment at_ => .str (isoMoment at_ ++ "+00:00")
  | .time at_ => .str (isoMicros at_)
  | .date day => .str (isoDate day)
  | .units n => .str (String.ofList (Decimals.text (Decimals.scaled kind.scale (decide (n < 0)) n.natAbs)))
  | .number n => .int n
  | .text s => .str s

-- PostgreSQL holds its columns to their width.
def Fits (d : Dialect) (kind : Kind) (content : Content) : Bool :=
  match d,kind,content with
  | .postgresql _ _,.integer,.number n => fitsIn 32 n
  | .postgresql _ _,.string length,.text s => plain s && decide (s.length ≤ length)
  | .postgresql _ _,.text,.text s => plain s
  | _,_,_ => true

-- A double is good for fifteen digits.
def Column.Sound (column : Column) : Prop := ∀ precision scale, column.kind = .numeric precision scale → precision ≤ 15

variable {d : Dialect} {column : Column} {cell : Cell} {content : Content}

theorem few_units {precision : Nat} {n : Int} (short : precision ≤ 15) (few : n.natAbs < 10^precision) : n.natAbs < 2^51 := by
  have most : 10^precision ≤ 10^15 := Nat.pow_le_pow_right (by decide) short
  exact few.trans_le (most.trans (by decide))

theorem fitsIn_widen {n : Int} (narrow : fitsIn 32 n = true) : fitsIn 64 n = true := by
  unfold fitsIn at *
  simp only [decide_eq_true_eq] at *
  omega

-- Every held value says something its column may say, and is how its database
-- says it.
theorem holds_content (held : Holds d column cell) :
    ∃ content, content.Of column ∧ Fits d column.kind content = true ∧ cell = content.cell d column.kind := by
  obtain ⟨name,kind,nullable⟩ := column
  cases cell with
  | null => exact ⟨.null,by cases d <;> cases kind <;> exact held,by cases d <;> cases kind <;> rfl,rfl⟩
  | int n =>
    cases kind with
    | boolean =>
      cases d with
      | sqlite =>
        rcases held with rfl | rfl
        · exact ⟨.truth false,rfl,rfl,rfl⟩
        · exact ⟨.truth true,rfl,rfl,rfl⟩
      | postgresql => cases held
    | integer =>
      cases d with
      | sqlite => exact ⟨.number n,⟨.inl rfl,held⟩,rfl,rfl⟩
      | postgresql => exact ⟨.number n,⟨.inl rfl,fitsIn_widen held⟩,held,rfl⟩
    | bigInteger => exact ⟨.number n,⟨.inr rfl,by cases d <;> exact held⟩,by cases d <;> rfl,rfl⟩
    | _ => cases d <;> cases held
  | bool b =>
    cases kind with
    | boolean =>
      cases d with
      | sqlite => cases held
      | postgresql => exact ⟨.truth b,rfl,rfl,rfl⟩
    | _ => cases d <;> cases held
  | text s =>
    cases kind with
    | enumeration members => exact ⟨.label s,⟨members,rfl,by cases d <;> exact held⟩,by cases d <;> rfl,rfl⟩
    | string length =>
      cases d with
      | sqlite => exact ⟨.text s,.inr ⟨length,rfl⟩,rfl,rfl⟩
      | postgresql => exact ⟨.text s,.inr ⟨length,rfl⟩,Bool.and_eq_true_iff.mpr ⟨held.1,decide_eq_true held.2⟩,rfl⟩
    | text =>
      cases d with
      | sqlite => exact ⟨.text s,.inl rfl,rfl,rfl⟩
      | postgresql => exact ⟨.text s,.inl rfl,held,rfl⟩
    | _ => cases d <;> cases held
  | real x =>
    cases kind with
    | numeric precision scale =>
      cases d with
      | sqlite =>
        obtain ⟨n,few,rfl⟩ := held
        exact ⟨.units n,⟨precision,scale,rfl,few⟩,rfl,rfl⟩
      | postgresql => cases held
    | _ => cases d <;> cases held
  | numeric units =>
    cases kind with
    | numeric precision scale =>
      cases d with
      | sqlite => cases held
      | postgresql => exact ⟨.units units,⟨precision,scale,rfl,held⟩,rfl,rfl⟩
    | _ => cases d <;> cases held
  | date day =>
    cases kind with
    | date => exact ⟨.date day,⟨rfl,by cases d <;> exact held⟩,by cases d <;> rfl,rfl⟩
    | _ => cases d <;> cases held
  | time at_ =>
    cases kind with
    | time => exact ⟨.time at_,rfl,by cases d <;> rfl,rfl⟩
    | _ => cases d <;> cases held
  | wall moment =>
    cases kind with
    | dateTime =>
      cases d with
      | sqlite => exact ⟨.moment moment,⟨rfl,held⟩,rfl,rfl⟩
      | postgresql => cases held
    | _ => cases d <;> cases held
  | instant moment =>
    cases kind with
    | dateTime =>
      cases d with
      | sqlite => cases held
      | postgresql => exact ⟨.moment moment,⟨rfl,held⟩,rfl,rfl⟩
    | _ => cases d <;> cases held

-- One content has one written form, out of either database.
theorem written_form (sound : column.Sound) (of : content.Of column) : written d column (content.cell d column.kind) = some (content.form column.kind) := by
  obtain ⟨name,kind,nullable⟩ := column
  cases content with
  | null => cases d <;> cases kind <;> rfl
  | label s =>
    obtain ⟨members,rfl,member⟩ := of
    have there : fetch d (.enumeration members) (.text s) = some (.member s) := by
      cases d <;> exact if_pos member
    unfold written
    change (fetch d (.enumeration members) (.text s)).bind _ = _
    rw [there]
    rfl
  | truth b =>
    cases of
    cases d <;> cases b <;> rfl
  | moment at_ =>
    obtain ⟨rfl,range⟩ := of
    cases d with
    | sqlite => exact if_pos range
    | postgresql zone lower =>
      change isoUtc (at_+zone at_-zone at_) = _
      rw [Int.add_sub_cancel]
      exact if_pos range
  | time at_ =>
    cases of
    cases d <;> rfl
  | date day =>
    obtain ⟨rfl,range⟩ := of
    cases d <;> rfl
  | units n =>
    obtain ⟨precision,scale,rfl,few⟩ := of
    have short := few_units (sound precision scale rfl) few
    cases d with
    | sqlite =>
      change some (Scalar.str (String.ofList (Decimals.text (Decimals.quantize (Decimals.scaled scale
        (decide (Decimals.double (n/10^scale) < 0)) (Decimals.halfEven (|Decimals.double (n/10^scale)| * 10^scale)).toNat) scale)))) = _
      have ten : (0 : ℚ) < 10^scale := by positivity
      have sign : decide (Decimals.double (n/10^scale) < 0) = decide (n < 0) := by
        apply decide_eq_decide.mpr
        rw [Decimals.double_sign,div_lt_iff₀ ten,zero_mul]
        exact Int.cast_lt_zero
      rw [Decimals.halfEven_double short,sign,Int.toNat_natCast,Decimals.quantize_scaled]
      rfl
    | postgresql =>
      change some (Scalar.str (String.ofList (Decimals.text (Decimals.quantize (Decimals.scaled scale (decide (n < 0)) n.natAbs) scale)))) = _
      rw [Decimals.quantize_scaled]
      rfl
  | number n =>
    obtain ⟨rfl | rfl,wide⟩ := of
    · cases d <;> rfl
    · cases d <;> rfl
  | text s =>
    rcases of with rfl | ⟨length,rfl⟩
    · cases d <;> rfl
    · cases d <;> rfl

theorem decode_moment (name : String) (nullable : Bool) (s : String) : decode ⟨name,.dateTime,nullable⟩ (.scalar (.str s)) =
    match readMoment s.toList with
    | some read => toUtc read
    | none => .error .unreadable := rfl

theorem decode_time (name : String) (nullable : Bool) (s : String) : decode ⟨name,.time,nullable⟩ (.scalar (.str s)) =
    reads (readTime s.toList) .time := rfl

theorem decode_date (name : String) (nullable : Bool) (s : String) : decode ⟨name,.date,nullable⟩ (.scalar (.str s)) =
    reads (readDate s.toList) .date := rfl

theorem decode_numeric (name : String) (nullable : Bool) (precision scale : Nat) (s : String) :
    decode ⟨name,.numeric precision scale,nullable⟩ (.scalar (.str s)) = reads (Decimals.read s.toList) .decimal := rfl

-- It reads back as a value whose written form it is.
theorem decode_form (of : content.Of column) : decode column (.scalar (content.form column.kind)) = .ok (content.value column.kind) := by
  obtain ⟨name,kind,nullable⟩ := column
  cases content with
  | null => exact if_pos of
  | label s =>
    obtain ⟨members,rfl,member⟩ := of
    exact if_pos member
  | truth b =>
    cases of
    rfl
  | moment at_ =>
    obtain ⟨rfl,range⟩ := of
    have read := readMoment_isoMoment range.1 range.2
    refine (decode_moment name nullable _).trans ?_
    rw [read]
    change (if InRange (at_-0) then Except.ok (Value.aware (at_-0) 0) else Except.error Problem.unreadable) = _
    rw [Int.sub_zero]
    exact if_pos range
  | time at_ =>
    cases of
    refine (decode_time name nullable _).trans ?_
    rw [readTime_isoMicros]
    rfl
  | date day =>
    obtain ⟨rfl,low,high⟩ := of
    refine (decode_date name nullable _).trans ?_
    rw [(isoDate_parts low high).2]
    rfl
  | units n =>
    obtain ⟨precision,scale,rfl,few⟩ := of
    have low : (Decimals.scaled scale (decide (n < 0)) n.natAbs).exponent ≤ 0 := by
      change -(scale : Int) ≤ 0
      omega
    refine (decode_numeric name nullable precision scale _).trans ?_
    rw [String.toList_ofList]
    have read := Decimals.read_text low
    exact congrArg (fun d => reads d Value.decimal) read
  | number n =>
    obtain ⟨rfl | rfl,wide⟩ := of
    · rfl
    · rfl
  | text s =>
    rcases of with rfl | ⟨length,rfl⟩
    · rfl
    · rfl

theorem encode_value (of : content.Of column) : encode column.kind (content.value column.kind) = some (content.form column.kind) := by
  obtain ⟨name,kind,nullable⟩ := column
  cases content with
  | moment at_ =>
    obtain ⟨rfl,range⟩ := of
    change isoUtc (at_-0) = _
    rw [Int.sub_zero]
    exact if_pos range
  | units n =>
    obtain ⟨precision,scale,rfl,few⟩ := of
    change some (Scalar.str (String.ofList (Decimals.text (Decimals.quantize (Decimals.scaled scale (decide (n < 0)) n.natAbs) scale)))) = _
    rw [Decimals.quantize_scaled]
    rfl
  | _ => rfl

theorem store_value (of : content.Of column) (fits : Fits d column.kind content = true) :
    store d column.kind (content.value column.kind) = some (content.cell d column.kind) := by
  obtain ⟨name,kind,nullable⟩ := column
  cases content with
  | null => cases d <;> cases kind <;> rfl
  | label s =>
    obtain ⟨members,rfl,member⟩ := of
    cases d <;> exact if_pos member
  | truth b =>
    cases of
    cases d <;> rfl
  | moment at_ =>
    obtain ⟨rfl,range⟩ := of
    cases d with
    | sqlite => rfl
    | postgresql =>
      change some (Cell.instant (at_-0)) = _
      rw [Int.sub_zero]
      rfl
  | time at_ =>
    cases of
    cases d <;> rfl
  | date day =>
    obtain ⟨rfl,range⟩ := of
    cases d <;> rfl
  | units n =>
    obtain ⟨precision,scale,rfl,few⟩ := of
    have amount := Decimals.scaled_value scale n
    cases d with
    | sqlite =>
      change some (Cell.real (Decimals.double (Decimals.scaled scale (decide (n < 0)) n.natAbs).value)) = _
      rw [amount]
      rfl
    | postgresql =>
      have ten : (10 : ℚ)^scale ≠ 0 := by positivity
      have whole : Decimals.halfAway ((Decimals.scaled scale (decide (n < 0)) n.natAbs).value*10^scale) = n := by
        rw [amount,div_mul_cancel₀ _ ten,Decimals.halfAway_int]
      change (if (Decimals.halfAway ((Decimals.scaled scale (decide (n < 0)) n.natAbs).value*10^scale)).natAbs < 10^precision then
        some (Cell.numeric (Decimals.halfAway ((Decimals.scaled scale (decide (n < 0)) n.natAbs).value*10^scale))) else none) = _
      rw [whole]
      exact if_pos few
  | number n =>
    obtain ⟨rfl | rfl,wide⟩ := of
    · cases d with
      | sqlite => exact if_pos wide
      | postgresql => exact if_pos fits
    · cases d <;> exact if_pos wide
  | text s =>
    rcases of with rfl | ⟨length,rfl⟩
    · cases d with
      | sqlite => rfl
      | postgresql => exact if_pos fits
    · cases d with
      | sqlite => rfl
      | postgresql =>
        obtain ⟨plain_,short⟩ := Bool.and_eq_true_iff.mp fits
        change (if plain s = false then none else if s.length ≤ length then some (Cell.text s) else _) = _
        rw [if_neg (by simp [plain_]),if_pos (of_decide_eq_true short)]
        rfl

end ChronosLedger.Portability
