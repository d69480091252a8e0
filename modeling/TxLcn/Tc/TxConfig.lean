import TxLcn.Lib.Pattern

/-!
# The configured TMs

Each configured string is matched against a pattern. One that does not match is
passed over; the numbers of the others are parsed and made into addresses, and
both of these throw if a number is too large.

An address is its host and port.
-/

namespace TxLcn.Tc

open TxLcn.Lib

/-- What is thrown while an address is made. -/
inductive AddressException where
  | numberFormatException
  | illegalArgumentException
  deriving Repr, DecidableEq

/-- `\s`. -/
def whiteSpace (c : Char) : Bool := c ∈ [' ', '\t', '\n', '\x0b', '\x0c', '\r']

/-- What `.` does not match. -/
def lineTerminator (c : Char) : Bool := c ∈ ['\n', '\r', '\u0085', '\u2028', '\u2029']

/-- The number that the digits denote. -/
def digitsValue (digits : List Char) : Nat :=
  digits.foldl (fun n c => 10 * n + (c.toNat - '0'.toNat)) 0

/-- `Integer.parseInt`, of digits. -/
def parseInt (digits : List Char) : Except AddressException Nat :=
  if digitsValue digits ≤ 2147483647 then .ok (digitsValue digits)
  else .error .numberFormatException

/-- `new InetSocketAddress(host, port)`. -/
def InetSocketAddress.new (host : List Char) (port : Nat) :
    Except AddressException (String × Nat) :=
  if port ≤ 65535 then .ok (String.ofList host, port) else .error .illegalArgumentException

structure TxConfig where
  tms : Option (List String) := none
  tmResource : Int := 1

namespace TxConfig

/-- `^\s*(.*?):(\d+)\s*$`, for a whole text. -/
def pattern : List (Item Char) :=
  [.star whiteSpace true, .star (fun c => !lineTerminator c) false, .literal ':',
    .plus Char.isDigit, .star whiteSpace true]

/-- `null` if the text does not match. -/
def addressFormat (address : String) : Except AddressException (Option (String × Nat)) :=
  match matchAll pattern address.toList with
  | some [_, host, _, digits, _] => do
      let port ← parseInt digits
      let address ← InetSocketAddress.new host port
      pure (some address)
  | _ => .ok none

/-- The addresses of the items; the first exception is the end of it. -/
def addressesOf : List String → Except AddressException (List (String × Nat))
  | [] => .ok []
  | item :: tms => do
      let optional ← addressFormat item
      let addresses ← addressesOf tms
      pure (optional.toList ++ addresses)

def txManagerAddresses (config : TxConfig) : Except AddressException (List (String × Nat)) :=
  match config.tms with
  | none => .ok []
  | some tms => addressesOf tms

end TxConfig

end TxLcn.Tc
