import Mathlib.Data.Nat.Digits.Defs
import Mathlib.Data.List.TakeWhile

namespace JsonText

def quote : Char := Char.ofNat 34
def backslash : Char := Char.ofNat 92

inductive Scalar where
  | null
  | bool (value : Bool)
  | int (value : Int)
  | str (value : String)
  deriving DecidableEq, Repr

-- A float is kept as it was written.
inductive Json where
  | scalar (value : Scalar)
  | float (literal : List Char)
  | arr (items : List Json)
  | obj (entries : List (String × Json))

-- What is written of a character inside a string: the two that would end or
-- escape one, and the controls.
def escape (c : Char) : List Char :=
  if c = quote then [backslash,quote]
  else if c = backslash then [backslash,backslash]
  else if c.toNat = 8 then [backslash,'b']
  else if c.toNat = 9 then [backslash,'t']
  else if c.toNat = 10 then [backslash,'n']
  else if c.toNat = 12 then [backslash,'f']
  else if c.toNat = 13 then [backslash,'r']
  else if c.toNat < 32 then [backslash,'u','0','0',Nat.digitChar (c.toNat/16),Nat.digitChar (c.toNat%16)]
  else [c]

def quoted (text : String) : List Char := quote :: (text.toList.flatMap escape ++ [quote])

def integer (n : Int) : List Char := if n < 0 then '-' :: Nat.toDigits 10 n.natAbs else Nat.toDigits 10 n.natAbs

def scalar : Scalar → List Char
  | .null => ['n','u','l','l']
  | .bool true => ['t','r','u','e']
  | .bool false => ['f','a','l','s','e']
  | .int n => integer n
  | .str text => quoted text

def member (entry : String × Scalar) : List Char := quoted entry.1 ++ ':' :: scalar entry.2

-- An object of scalars with no blank in it.
def compact (record : List (String × Scalar)) : List Char :=
  '{' :: (List.intercalate [','] (record.map member) ++ ['}'])

def isBlank (c : Char) : Bool := c = ' ' ∨ c.toNat = 9 ∨ c.toNat = 10 ∨ c.toNat = 13

def skipBlanks (text : List Char) : List Char := text.dropWhile isBlank

def hexValue (c : Char) : Option Nat :=
  if c.isDigit then some (c.toNat-48)
  else if 97 ≤ c.toNat ∧ c.toNat ≤ 102 then some (c.toNat-87)
  else if 65 ≤ c.toNat ∧ c.toNat ≤ 70 then some (c.toNat-55)
  else none

def unit (a b c d : Char) : Option Nat := do
  let a ← hexValue a
  let b ← hexValue b
  let c ← hexValue c
  let d ← hexValue d
  some (((a*16+b)*16+c)*16+d)

def unescape (c : Char) : Option Char :=
  if c = quote then some quote
  else if c = backslash then some backslash
  else if c = '/' then some '/'
  else if c = 'b' then some (Char.ofNat 8)
  else if c = 't' then some (Char.ofNat 9)
  else if c = 'n' then some (Char.ofNat 10)
  else if c = 'f' then some (Char.ofNat 12)
  else if c = 'r' then some (Char.ofNat 13)
  else none

def isHigh (n : Nat) : Bool := 0xD800 ≤ n ∧ n < 0xDC00
def isLow (n : Nat) : Bool := 0xDC00 ≤ n ∧ n < 0xE000

def before (c : Char) (read : Option (List Char × List Char)) : Option (List Char × List Char) :=
  read.map (fun pair => (c :: pair.1,pair.2))

-- The rest of a string, and what follows its closing quote. Half of a surrogate
-- pair is no text here.
def string : List Char → Option (List Char × List Char)
  | [] => none
  | c :: rest =>
    if c = quote then some ([],rest)
    else if c = backslash then
      match rest with
      | [] => none
      | 'u' :: a :: b :: c :: d :: tail =>
        match unit a b c d with
        | none => none
        | some high =>
          if isHigh high then
            match tail with
            | slash :: 'u' :: e :: f :: g :: h :: more =>
              match unit e f g h with
              | none => none
              | some low =>
                if slash = backslash ∧ isLow low then
                  before (Char.ofNat (0x10000+(high-0xD800)*0x400+(low-0xDC00))) (string more)
                else none
            | _ => none
          else if isLow high then none
          else before (Char.ofNat high) (string tail)
      | e :: tail =>
        match unescape e with
        | none => none
        | some plain => before plain (string tail)
    else if c.toNat < 32 then none
    else before c (string rest)

def digitsOf (text : List Char) : List Char := text.takeWhile Char.isDigit
def afterDigits (text : List Char) : List Char := text.dropWhile Char.isDigit

-- A number has no leading zero.
def integerPart (text : List Char) : Option (List Char) :=
  match digitsOf text with
  | [] => none
  | '0' :: _ => some ['0']
  | digits => some digits

def fraction (text : List Char) : List Char :=
  match text with
  | '.' :: rest => if digitsOf rest = [] then [] else '.' :: digitsOf rest
  | _ => []

def exponent (text : List Char) : List Char :=
  match text with
  | e :: rest =>
    if e = 'e' ∨ e = 'E' then
      match rest with
      | [] => []
      | sign :: tail =>
        if sign = '+' ∨ sign = '-' then (if digitsOf tail = [] then [] else e :: sign :: digitsOf tail)
        else if digitsOf rest = [] then [] else e :: digitsOf rest
    else []
  | [] => []

def unsigned (negative : Bool) (text : List Char) : Option (Json × List Char) := do
  let digits ← integerPart text
  let rest := text.drop digits.length
  let part := fraction rest
  let power := exponent (rest.drop part.length)
  let left := rest.drop (part.length+power.length)
  let n : Int := Nat.ofDigitChars 10 digits 0
  if part = [] ∧ power = [] then some (.scalar (.int (if negative then -n else n)),left)
  else some (.float ((if negative then ['-'] else []) ++ digits ++ part ++ power),left)

def number : List Char → Option (Json × List Char)
  | '-' :: rest => unsigned true rest
  | text => unsigned false text

mutual
def value : Nat → List Char → Option (Json × List Char)
  | 0,_ => none
  | fuel+1,text =>
    match text with
    | [] => none
    | c :: rest =>
      if c = quote then (string rest).map (fun pair => (.scalar (.str (String.ofList pair.1)),pair.2))
      else if c = '{' then
        match skipBlanks rest with
        | '}' :: tail => some (.obj [],tail)
        | inner => (members fuel inner).map (fun pair => (.obj pair.1,pair.2))
      else if c = '[' then
        match skipBlanks rest with
        | ']' :: tail => some (.arr [],tail)
        | inner => (items fuel inner).map (fun pair => (.arr pair.1,pair.2))
      else
        match text with
        | 'n' :: 'u' :: 'l' :: 'l' :: tail => some (.scalar .null,tail)
        | 't' :: 'r' :: 'u' :: 'e' :: tail => some (.scalar (.bool true),tail)
        | 'f' :: 'a' :: 'l' :: 's' :: 'e' :: tail => some (.scalar (.bool false),tail)
        | 'N' :: 'a' :: 'N' :: tail => some (.float ['N','a','N'],tail)
        | 'I' :: 'n' :: 'f' :: 'i' :: 'n' :: 'i' :: 't' :: 'y' :: tail => some (.float ['i','n','f'],tail)
        | '-' :: 'I' :: 'n' :: 'f' :: 'i' :: 'n' :: 'i' :: 't' :: 'y' :: tail => some (.float ['-','i','n','f'],tail)
        | _ => number text
def items : Nat → List Char → Option (List Json × List Char)
  | 0,_ => none
  | fuel+1,text => do
    let (first,rest) ← value fuel text
    match skipBlanks rest with
    | ',' :: more => (items fuel (skipBlanks more)).map (fun pair => (first :: pair.1,pair.2))
    | ']' :: tail => some ([first],tail)
    | _ => none
def members : Nat → List Char → Option (List (String × Json) × List Char)
  | 0,_ => none
  | fuel+1,text =>
    match text with
    | [] => none
    | c :: rest =>
      if c = quote then do
        let (key,rest) ← string rest
        match skipBlanks rest with
        | ':' :: rest =>
          let (first,rest) ← value fuel (skipBlanks rest)
          match skipBlanks rest with
          | ',' :: more => (members fuel (skipBlanks more)).map (fun pair => ((String.ofList key,first) :: pair.1,pair.2))
          | '}' :: tail => some ([(String.ofList key,first)],tail)
          | _ => none
        | _ => none
      else none
end

def loads (text : List Char) : Option Json := do
  let (read,rest) ← value (text.length+1) (skipBlanks text)
  if skipBlanks rest = [] then some read else none

end JsonText
