import Mathlib.Data.Int.Log
import Mathlib.Data.Rat.Floor
import Mathlib.Data.Nat.Digits.Defs
import Mathlib.Tactic.Linarith
import Mathlib.Tactic.Ring
import Mathlib.Tactic.Positivity
import Mathlib.Tactic.FieldSimp
import Mathlib.Tactic.NormNum

namespace Decimals

-- A finite decimal: a sign of its own, so that zero has two, and digits to be
-- read from the exponent on.
structure Decimal where
  negative : Bool
  coefficient : Nat
  exponent : Int
  deriving DecidableEq, Repr

def Decimal.value (d : Decimal) : ℚ := (if d.negative then -1 else 1)*d.coefficient*10^d.exponent

-- A whole number of units of the given scale.
def scaled (scale : Nat) (negative : Bool) (units : Nat) : Decimal := ⟨negative,units,-(scale : Int)⟩

-- The nearest whole number, and of two the even one.
def halfEven (q : ℚ) : Int :=
  if q-⌊q⌋ < 1/2 then ⌊q⌋ else if 1/2 < q-⌊q⌋ then ⌊q⌋+1 else if ⌊q⌋%2 = 0 then ⌊q⌋ else ⌊q⌋+1

-- The nearest whole number, and of two the one further from zero.
def halfAway (q : ℚ) : Int := if 0 ≤ q then ⌊q+1/2⌋ else -⌊-q+1/2⌋

def quantize (d : Decimal) (scale : Nat) : Decimal := scaled scale d.negative (halfEven (|d.value| * 10^scale)).toNat

def signed (n : Int) : List Char := (if n < 0 then '-' else '+') :: Nat.toDigits 10 n.natAbs

-- The digits with the point after so many of them.
def pointed (digits : List Char) (place : Int) : List Char :=
  if place ≤ 0 then '0' :: '.' :: (List.replicate (-place).toNat '0' ++ digits)
  else if digits.length ≤ place then digits ++ List.replicate (place-digits.length).toNat '0'
  else digits.take place.toNat ++ '.' :: digits.drop place.toNat

-- What str gives without the sign: plain, unless the value is small or has
-- zeros to spare.
def body (d : Decimal) : List Char :=
  let digits := Nat.toDigits 10 d.coefficient
  let left : Int := digits.length+d.exponent
  let place : Int := if d.exponent ≤ 0 ∧ -6 < left then left else 1
  pointed digits place ++ (if left = place then [] else 'E' :: signed (left-place))

def text (d : Decimal) : List Char := if d.negative then '-' :: body d else body d

def fractional : List Char → List Char
  | '.' :: rest => rest.takeWhile Char.isDigit
  | _ => []

def afterFraction : List Char → List Char
  | '.' :: rest => rest.dropWhile Char.isDigit
  | rest => rest

def power : List Char → Option Int
  | [] => some 0
  | e :: rest =>
    if e = 'E' ∨ e = 'e' then
      match rest with
      | [] => none
      | sign :: tail =>
        let digits := if sign = '+' ∨ sign = '-' then tail else rest
        if digits ≠ [] ∧ digits.all Char.isDigit = true then
          some (if sign = '-' then -(Nat.ofDigitChars 10 digits 0 : Int) else Nat.ofDigitChars 10 digits 0)
        else none
    else none

def unsigned (negative : Bool) (text : List Char) : Option Decimal := do
  let whole := text.takeWhile Char.isDigit
  let rest := text.dropWhile Char.isDigit
  let part := fractional rest
  let e ← power (afterFraction rest)
  if whole = [] ∧ part = [] then none else some ⟨negative,Nat.ofDigitChars 10 (whole ++ part) 0,e-part.length⟩

-- Decimal(text), of the finite ones.
def read : List Char → Option Decimal
  | '-' :: rest => unsigned true rest
  | '+' :: rest => unsigned false rest
  | text => unsigned false text

-- The binary double nearest to a number, of those away from the limits of its
-- exponent.
def double (q : ℚ) : ℚ :=
  if q = 0 then 0 else halfEven (q/2^(Int.log 2 |q|-52))*2^(Int.log 2 |q|-52)

variable {whole part suffix : List Char} {negative : Bool}

def Digits (text : List Char) : Prop := ∀ c ∈ text, c.isDigit = true

-- What may follow the digits of a number.
def Stops (suffix : List Char) : Prop := suffix = [] ∨ ∃ tail, suffix = 'E' :: tail

theorem Stops.taken (stops : Stops suffix) (digits : Digits part) : (part ++ suffix).takeWhile Char.isDigit = part := by
  rw [List.takeWhile_append_of_pos digits]
  rcases stops with rfl | ⟨tail,rfl⟩
  · exact List.append_nil part
  · rw [List.takeWhile_cons_of_neg (by decide),List.append_nil]

theorem Stops.left (stops : Stops suffix) (digits : Digits part) : (part ++ suffix).dropWhile Char.isDigit = suffix := by
  rw [List.dropWhile_append_of_pos digits]
  rcases stops with rfl | ⟨tail,rfl⟩
  · rfl
  · exact List.dropWhile_cons_of_neg (by decide)

theorem unsigned_point {e : Int} (digits : Digits whole) (after : Digits part) (full : whole ≠ []) (stops : Stops suffix)
    (read : power suffix = some e) : unsigned negative (whole ++ '.' :: (part ++ suffix)) =
      some ⟨negative,Nat.ofDigitChars 10 (whole ++ part) 0,e-part.length⟩ := by
  have point : ('.' :: (part ++ suffix)).takeWhile Char.isDigit = [] := List.takeWhile_cons_of_neg (by decide)
  have rest : ('.' :: (part ++ suffix)).dropWhile Char.isDigit = '.' :: (part ++ suffix) := List.dropWhile_cons_of_neg (by decide)
  unfold unsigned
  simp only [List.takeWhile_append_of_pos digits,List.dropWhile_append_of_pos digits,point,rest,List.append_nil,fractional,afterFraction,
    stops.taken after,stops.left after,read,Option.bind_eq_bind,Option.bind_some]
  exact if_neg (fun both => full both.1)

theorem unsigned_whole {e : Int} (digits : Digits whole) (full : whole ≠ []) (stops : Stops suffix) (read : power suffix = some e) :
    unsigned negative (whole ++ suffix) = some ⟨negative,Nat.ofDigitChars 10 whole 0,e⟩ := by
  have nothing : fractional suffix = [] ∧ afterFraction suffix = suffix := by
    rcases stops with rfl | ⟨tail,rfl⟩ <;> exact ⟨rfl,rfl⟩
  unfold unsigned
  simp only [stops.taken digits,stops.left digits,nothing.1,nothing.2,read,Option.bind_eq_bind,Option.bind_some,List.append_nil,
    List.length_nil,Int.ofNat_zero,Int.sub_zero]
  exact if_neg (fun both => full both.1)

theorem toDigits_digits (n : Nat) : Digits (Nat.toDigits 10 n) :=
  fun _ member => Nat.isDigit_of_mem_toDigits (by decide) (by decide) member

theorem power_signed (n : Int) : power ('E' :: signed n) = some n := by
  have all : (Nat.toDigits 10 n.natAbs).all Char.isDigit = true := List.all_eq_true.mpr (toDigits_digits _)
  have full : Nat.toDigits 10 n.natAbs ≠ [] := Nat.toDigits_ne_nil
  unfold signed
  by_cases below : n < 0
  · rw [if_pos below]
    change (if _ then some (-(Nat.ofDigitChars 10 (Nat.toDigits 10 n.natAbs) 0 : Int)) else none) = _
    rw [if_pos ⟨full,all⟩,Nat.ofDigitChars_ten_toDigits]
    exact congrArg some (by omega)
  · rw [if_neg below]
    change (if _ then some (Nat.ofDigitChars 10 (Nat.toDigits 10 n.natAbs) 0 : Int) else none) = _
    rw [if_pos ⟨full,all⟩,Nat.ofDigitChars_ten_toDigits]
    exact congrArg some (by omega)

theorem zeros_digits {digits : List Char} (all : Digits digits) (n : Nat) : Digits (List.replicate n '0' ++ digits) := by
  intro c member
  rcases List.mem_append.mp member with pad | own
  · rw [List.eq_of_mem_replicate pad]
    rfl
  · exact all c own

-- Digits with a point among or before them and an exponent after them, if any.
theorem unsigned_pointed {digits : List Char} {c : Nat} {place e : Int} (all : Digits digits) (full : 0 < digits.length)
    (value : Nat.ofDigitChars 10 digits 0 = c) (within_ : place ≤ digits.length) (stops : Stops suffix) (read : power suffix = some e) :
    unsigned negative (pointed digits place ++ suffix) = some ⟨negative,c,e-(digits.length-place)⟩ := by
  unfold pointed
  split
  · rename_i early
    have whole : Digits ['0'] := fun d member => by rw [List.mem_singleton.mp member]; rfl
    have done := @unsigned_point ['0'] _ suffix negative e whole (zeros_digits all (-place).toNat) (by decide) stops read
    have length : ((List.replicate (-place).toNat '0' ++ digits).length : Int) = digits.length-place := by
      rw [List.length_append,List.length_replicate]
      omega
    have number : Nat.ofDigitChars 10 (['0'] ++ (List.replicate (-place).toNat '0' ++ digits)) 0 = c := by
      have zero : Nat.ofDigitChars 10 ['0'] 0 = 0 := by decide
      rw [Nat.ofDigitChars_append,Nat.ofDigitChars_append,zero,Nat.ofDigitChars_replicate_zero,Nat.mul_zero,value]
    rw [number,length] at done
    exact done
  · split
    · rename_i late whole
      have exact_ : (place-digits.length).toNat = 0 := by omega
      have none_ : (digits.length : Int)-place = 0 := by omega
      rw [exact_,List.replicate_zero,List.append_nil,none_,Int.sub_zero,← value]
      exact unsigned_whole all (List.ne_nil_of_length_pos full) stops read
    · rename_i late inside
      have some_ : digits.take place.toNat ≠ [] := by
        apply List.ne_nil_of_length_pos
        rw [List.length_take]
        omega
      have done := @unsigned_point (digits.take place.toNat) (digits.drop place.toNat) suffix negative e
        (fun d member => all d (List.mem_of_mem_take member)) (fun d member => all d (List.mem_of_mem_drop member)) some_ stops read
      have length : ((digits.drop place.toNat).length : Int) = digits.length-place := by
        rw [List.length_drop]
        omega
      rw [List.take_append_drop,value,length] at done
      rw [List.append_assoc,List.cons_append]
      exact done

theorem unsigned_body {d : Decimal} (low : d.exponent ≤ 0) : unsigned d.negative (body d) = some d := by
  have long : 0 < (Nat.toDigits 10 d.coefficient).length := Nat.length_toDigits_pos
  have all := toDigits_digits d.coefficient
  have value : Nat.ofDigitChars 10 (Nat.toDigits 10 d.coefficient) 0 = d.coefficient := Nat.ofDigitChars_ten_toDigits
  unfold body
  dsimp only
  generalize Nat.toDigits 10 d.coefficient = digits at *
  by_cases plain : d.exponent ≤ 0 ∧ -6 < (digits.length : Int)+d.exponent
  · rw [if_pos plain,if_pos rfl,unsigned_pointed all long value (by omega) (.inl rfl) rfl]
    have same : 0-((digits.length : Int)-(digits.length+d.exponent)) = d.exponent := by omega
    rw [same]
  · have small : (digits.length : Int)+d.exponent ≠ 1 := by omega
    rw [if_neg plain,if_neg small,unsigned_pointed all long value (by omega) (.inr ⟨_,rfl⟩) (power_signed _)]
    have same : (digits.length : Int)+d.exponent-1-(digits.length-1) = d.exponent := by omega
    rw [same]

theorem pointed_opens (first : Char) (digits : List Char) (place : Int) :
    ∃ c tail, pointed (first :: digits) place = c :: tail ∧ (c = '0' ∨ c = first) := by
  unfold pointed
  split
  · exact ⟨'0',_,rfl,.inl rfl⟩
  · split
    · exact ⟨first,_,rfl,.inr rfl⟩
    · rename_i late _
      obtain ⟨n,positive⟩ := Nat.exists_eq_succ_of_ne_zero (show place.toNat ≠ 0 by omega)
      rw [positive]
      exact ⟨first,_,rfl,.inr rfl⟩

theorem body_opens (d : Decimal) : ∃ c tail, body d = c :: tail ∧ c.isDigit = true := by
  have all := toDigits_digits d.coefficient
  unfold body
  dsimp only
  cases shown : Nat.toDigits 10 d.coefficient with
  | nil => exact absurd shown Nat.toDigits_ne_nil
  | cons first digits =>
    rw [shown] at all
    obtain ⟨c,tail,opens,which⟩ := pointed_opens first digits
      (if d.exponent ≤ 0 ∧ -6 < ((first :: digits).length : Int)+d.exponent then ((first :: digits).length : Int)+d.exponent else 1)
    rw [opens]
    refine ⟨c,_,rfl,?_⟩
    rcases which with rfl | rfl
    · rfl
    · exact all _ List.mem_cons_self

-- A decimal with no zeros to spare reads back as it was, sign and exponent
-- included.
theorem read_text {d : Decimal} (low : d.exponent ≤ 0) : read (text d) = some d := by
  have done := unsigned_body low
  unfold text
  split
  · rename_i below
    rw [below] at done
    exact done
  · rename_i above
    obtain ⟨c,tail,opens,digit⟩ := body_opens d
    rw [Bool.not_eq_true] at above
    rw [above,opens] at done
    rw [opens]
    unfold read
    split
    · rename_i same
      rw [(List.cons.inj same).1] at digit
      cases digit
    · rename_i same
      rw [(List.cons.inj same).1] at digit
      cases digit
    · exact done

theorem halfEven_near (q : ℚ) : |halfEven q-q| ≤ 1/2 := by
  have low := Int.floor_le q
  have high := Int.lt_floor_add_one q
  unfold halfEven
  rw [abs_le]
  split
  · constructor <;> linarith
  · split
    · push_cast
      constructor <;> linarith
    · split
      · constructor <;> linarith
      · push_cast
        constructor <;> linarith

theorem halfEven_nearest {q : ℚ} {n : Int} (near : |q-n| < 1/2) : halfEven q = n := by
  have close := halfEven_near q
  rw [abs_le] at close
  rw [abs_lt] at near
  have high : (halfEven q : ℚ) < n+1 := by linarith
  have low : (n : ℚ) < halfEven q+1 := by linarith
  have below : halfEven q < n+1 := by exact_mod_cast high
  have above : n < halfEven q+1 := by exact_mod_cast low
  omega

theorem halfEven_int (n : Int) : halfEven (n : ℚ) = n := halfEven_nearest (by norm_num)

theorem halfAway_int (n : Int) : halfAway (n : ℚ) = n := by
  have half : ⌊(1/2 : ℚ)⌋ = 0 := by norm_num
  unfold halfAway
  split
  · rw [Int.floor_intCast_add,half,Int.add_zero]
  · have minus : (-(n : ℚ)) = ((-n : Int) : ℚ) := by push_cast; ring
    rw [minus,Int.floor_intCast_add,half,Int.add_zero,Int.neg_neg]

theorem double_near (q : ℚ) : |double q-q| ≤ |q|/2^53 := by
  unfold double
  split
  · rename_i zero
    rw [zero]
    norm_num
  · rename_i other
    have size : 0 < |q| := abs_pos.mpr other
    have unit_ : (0 : ℚ) < 2^(Int.log 2 |q|-52) := zpow_pos (by norm_num) _
    have below := Int.zpow_log_le_self (b := 2) (by decide) size
    generalize Int.log 2 |q| = log at *
    have near := halfEven_near (q/2^(log-52))
    have split_ : (2 : ℚ)^(log-52) = 2^log/2^52 := by
      rw [zpow_sub₀ (by norm_num)]
      norm_num
    have whole : (halfEven (q/2^(log-52)) : ℚ)*2^(log-52)-q = (halfEven (q/2^(log-52))-q/2^(log-52))*2^(log-52) := by
      field_simp
    rw [whole,abs_mul,abs_of_pos unit_]
    push_cast at below
    calc |(halfEven (q/2^(log-52)) : ℚ)-q/2^(log-52)| * 2^(log-52) ≤ 1/2*2^(log-52) := mul_le_mul_of_nonneg_right near unit_.le
      _ = 2^log/2^53 := by rw [split_]; ring
      _ ≤ |q|/2^53 := div_le_div_of_nonneg_right below (by norm_num)

theorem double_sign (q : ℚ) : double q < 0 ↔ q < 0 := by
  have near := double_near q
  have less : |q|/2^53 ≤ |q|/2 := div_le_div_of_nonneg_left (abs_nonneg q) (by norm_num) (by norm_num)
  rw [abs_le] at near
  rcases lt_trichotomy q 0 with below | zero | above
  · rw [abs_of_neg below] at near less
    constructor
    · exact fun _ => below
    · intro _
      linarith
  · rw [zero]
    norm_num [double]
  · rw [abs_of_pos above] at near less
    constructor
    · intro negative
      linarith
    · intro negative
      linarith

theorem scaled_value (scale : Nat) (n : Int) : (scaled scale (decide (n < 0)) n.natAbs).value = n/10^scale := by
  unfold scaled Decimal.value
  rw [zpow_neg,zpow_natCast]
  have signed_ : (if decide (n < 0) = true then (-1 : ℚ) else 1)*(n.natAbs : ℚ) = n := by
    rw [Nat.cast_natAbs,Int.cast_abs]
    by_cases below : n < 0
    · have under : (n : ℚ) < 0 := by exact_mod_cast below
      rw [if_pos (decide_eq_true below),abs_of_neg under]
      ring
    · have over_ : (0 : ℚ) ≤ n := by exact_mod_cast Int.not_lt.mp below
      rw [if_neg (by simpa using below),abs_of_nonneg over_,one_mul]
  rw [signed_]
  rfl

theorem quantize_scaled (scale : Nat) (negative : Bool) (n : Nat) : quantize (scaled scale negative n) scale = scaled scale negative n := by
  have whole : |(scaled scale negative n).value| * 10^scale = (n : Int) := by
    unfold scaled Decimal.value
    rw [zpow_neg,zpow_natCast,abs_mul,abs_mul]
    have one : |if negative = true then (-1 : ℚ) else 1| = 1 := by cases negative <;> norm_num
    have ten : (0 : ℚ) < 10^scale := by positivity
    rw [one,one_mul,abs_of_nonneg (Nat.cast_nonneg n),abs_of_pos (inv_pos.mpr ten),mul_assoc,inv_mul_cancel₀ ten.ne',mul_one]
    rfl
  unfold quantize
  rw [whole,halfEven_int]
  rfl

-- A double is close enough to a number of few digits to give it back at its
-- scale.
theorem halfEven_double {n : Int} {scale : Nat} (few : n.natAbs < 2^51) :
    halfEven (|double (n/10^scale)| * 10^scale) = n.natAbs := by
  have ten : (0 : ℚ) < 10^scale := by positivity
  have near := double_near (n/10^scale)
  have size : |(n : ℚ)| < 2^51 := by
    have cast_ : (n.natAbs : ℚ) < ((2^51 : Nat) : ℚ) := by exact_mod_cast few
    rw [Nat.cast_natAbs] at cast_
    exact_mod_cast cast_
  apply halfEven_nearest
  have apart : |(|double (n/10^scale)|-|(n : ℚ)/10^scale|)| ≤ |(n : ℚ)/10^scale|/2^53 := (abs_abs_sub_abs_le _ _).trans near
  have absolute : |(n : ℚ)/10^scale| = |(n : ℚ)|/10^scale := by rw [abs_div,abs_of_pos ten]
  have named : (((n.natAbs : Nat) : Int) : ℚ) = |(n : ℚ)|/10^scale*10^scale := by
    rw [div_mul_cancel₀ _ ten.ne',Int.cast_natCast,Nat.cast_natAbs,Int.cast_abs]
  rw [named,← absolute,← sub_mul,abs_mul,abs_of_pos ten]
  calc |(|double (n/10^scale)|-|(n : ℚ)/10^scale|)| * 10^scale ≤ |(n : ℚ)/10^scale|/2^53*10^scale := mul_le_mul_of_nonneg_right apart ten.le
    _ = |(n : ℚ)|/2^53 := by
      rw [absolute]
      field_simp
    _ < 1/2 := by
      rw [div_lt_iff₀ (by norm_num)]
      linarith

end Decimals
