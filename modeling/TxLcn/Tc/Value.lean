import TxLcn.Lib.SqlPlaceholder
import TxLcn.Tc.Statements

/-!
# The values of parameters in the text of a statement

What is kept of a parameter is the object that it was set to. In the text a number
or a truth value stands as it is, and anything else between quotes, with the
quotes in it doubled.
-/

namespace TxLcn.Tc

open TxLcn.Lib

/-- The exponent of a number, as it is written. -/
inductive Exponent where
  | absent
  | unsigned (value : Nat)
  | signed (negative : Bool) (value : Nat)
  deriving Repr, DecidableEq

/-- A number as `Float`, `Double` and `BigDecimal` write it. -/
structure Decimal where
  negative : Bool := false
  whole : Nat
  /-- The digits behind the point, which is not written if there are none. -/
  fraction : List (Fin 10) := []
  exponent : Exponent := .absent
  deriving Repr, DecidableEq

/-- The exponent behind the last digits in front of it. -/
def Exponent.text (digits : List Char) : Exponent → List Char
  | absent => digits
  | unsigned value => digits ++ 'E' :: Nat.toDigits 10 value
  | signed negative value =>
      (digits ++ ['E']) ++ (if negative then '-' else '+') :: Nat.toDigits 10 value

namespace Decimal

/-- The digits behind the point. -/
def fractionDigits (d : Decimal) : List Char := d.fraction.map fun n : Fin 10 => Nat.digitChar n.val

def unsigned (d : Decimal) : List Char :=
  if d.fraction.isEmpty then d.exponent.text (Nat.toDigits 10 d.whole)
  else Nat.toDigits 10 d.whole ++ '.' :: d.exponent.text d.fractionDigits

def toString (d : Decimal) : String :=
  String.ofList (if d.negative then '-' :: d.unsigned else d.unsigned)

end Decimal

/-- The object of a `Value`, by the cases of `convertToString`. -/
inductive Value where
  | null
  /-- A `Number` without a fraction. -/
  | integer (value : Int)
  | decimal (value : Decimal)
  /-- Any other `Number`, by its `toString`, such as `NaN`. -/
  | number (text : String)
  | boolean (value : Bool)
  | bytes (value : List UInt8)
  /-- Anything else, by its `toString`, or by the format of dates. -/
  | other (text : String)
  deriving Repr, DecidableEq

namespace Value

def HEX_CHARS : List Char :=
  ['0', '1', '2', '3', '4', '5', '6', '7', '8', '9', 'A', 'B', 'C', 'D', 'E', 'F']

def toHexString (bytes : List UInt8) : String :=
  String.ofList <| bytes.flatMap fun b =>
    [HEX_CHARS.getD (b.toNat / 16) '0', HEX_CHARS.getD (b.toNat % 16) '0']

/-- `stringValue.replaceAll("'", "''")`. -/
def escape (stringValue : String) : String :=
  String.ofList (stringValue.toList.flatMap fun c => if c = '\'' then ['\'', '\''] else [c])

def quoteIfNeeded (stringValue : String) : Value → String
  | integer _ | decimal _ | number _ | boolean _ => stringValue
  | _ => "'" ++ escape stringValue ++ "'"

def convertToString (value : Value) : String :=
  match value with
  | null => "NULL"
  | integer i => quoteIfNeeded (Int.repr i) value
  | decimal d => quoteIfNeeded d.toString value
  | number text => quoteIfNeeded text value
  | boolean b => quoteIfNeeded (if b then "true" else "false") value
  | bytes bs => quoteIfNeeded (toHexString bs) value
  | other text => quoteIfNeeded text value

end Value

/-- `PreparedStatementInformation.setParameterValue`; the first position is 1. -/
def ParameterValues.setParameterValue (parameterValues : ParameterValues) (position : Nat)
    (value : Value) : ParameterValues :=
  parameterValues.put (position - 1) value.convertToString

/-- The `set` methods of a `PreparedStatement`, called in that order. -/
def ParameterValues.ofCalls (calls : List (Nat × Value)) : ParameterValues :=
  calls.foldl (fun parameterValues call => parameterValues.setParameterValue call.1 call.2) []

/-- The last digits in front of the exponent, and the exponent. -/
def Exponent.tokens (digits : List Char) : Exponent → List Token
  | absent => [.word digits]
  | unsigned value => [.word (digits ++ 'E' :: Nat.toDigits 10 value)]
  | signed negative value =>
      [.word (digits ++ ['E']), .symbol (if negative then '-' else '+'),
        .word (Nat.toDigits 10 value)]

def Decimal.tokens (d : Decimal) : List Token :=
  (if d.negative then [.symbol '-'] else [])
    ++ if d.fraction.isEmpty then d.exponent.tokens (Nat.toDigits 10 d.whole)
      else .word (Nat.toDigits 10 d.whole) :: .symbol '.' :: d.exponent.tokens d.fractionDigits

namespace Value

/-- What the value is in a statement. -/
def tokens : Value → List Token
  | null => [.word "NULL".toList]
  | integer (.ofNat n) => [.word (Nat.toDigits 10 n)]
  | integer (.negSucc n) => [.symbol '-', .word (Nat.toDigits 10 (n + 1))]
  | decimal d => d.tokens
  | number text => [.word text.toList]
  | boolean b => [.word (if b then "true" else "false").toList]
  | bytes bs => [.quoted .single (toHexString bs).toList]
  | other text => [.quoted .single text.toList]

/-- A number can be read as one, and there is no backslash in anything else. -/
def Plain : Value → Prop
  | other text => '\\' ∉ text.toList
  | number _ => False
  | _ => True

end Value

/-- What a position was set to last. -/
def lastSet (calls : List (Nat × Value)) (position : Nat) : Option Value :=
  (calls.reverse.find? fun call => call.1 = position).map Prod.snd

end TxLcn.Tc
