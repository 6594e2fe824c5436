import Mathlib.Algebra.Group.Int.Defs
import Mathlib.Algebra.Group.Nat.Defs
import ProxySet.Lib.TokenReader
import ProxySet.Redsocks.ClientCore

/-!
The string functions of libc and libevent that the HTTP modules use, on byte
lists that stand for NUL-terminated strings without their terminator.
-/

namespace ProxySet

open TokenReader

def ascii (text : String) : Bytes :=
  text.toList.map fun character => character.toNat.toUInt8

/-- The bytes of a literal, without a detour through its encoding. -/
theorem ascii_ofList (characters : List Char) :
    ascii (String.ofList characters) = characters.map fun character => character.toNat.toUInt8 := by
  rw [ascii, String.toList_ofList]

/-- A value as an `int` of C holds it. -/
def cInt (value : Int) : Int :=
  value.bmod (2 ^ 32)

theorem cInt_of_bounds {value : Int} (lower : -2 ^ 31 ≤ value) (upper : value < 2 ^ 31) :
    cInt value = value := by
  rw [cInt, Int.bmod_eq_of_le]
  · omega
  · omega

theorem cInt_nonpos {value : Int} (lower : 2 ^ 31 ≤ value) (upper : value ≤ 2 ^ 32) :
    cInt value ≤ 0 := by
  unfold cInt Int.bmod
  dsimp only
  split
  · omega
  · omega

def crlf : Bytes := [13, 10]

/-- What a function that stops at the first NUL sees of a buffer. -/
def cstr (buffer : Bytes) : Bytes :=
  buffer.takeWhile (· ≠ 0)

def stripCr (line : Bytes) : Bytes :=
  if line.getLast? = some 13 then line.dropLast else line

/-- `evbuffer_readln(buf, NULL, EVBUFFER_EOL_CRLF)`, with the line as its readers see it. -/
def redsocksEvbufferReadline : Reader UInt8 Bytes :=
  Reader.delimited 10 fun raw => cstr (stripCr raw)

def isspace (byte : UInt8) : Bool :=
  byte == 32 || (decide (9 ≤ byte) && decide (byte ≤ 13))

def isdigit (byte : UInt8) : Bool :=
  decide (48 ≤ byte) && decide (byte ≤ 57)

/-- `while (more(*p)) ++p;` -/
def advance (more : UInt8 → Bool) : Bytes → Option Bytes
  | [] => none
  | byte :: rest => if more byte then advance more rest else some (byte :: rest)

theorem advance_terminated {text : Bytes} {more : UInt8 → Bool} (behind : Bytes)
    (stops : more 0 = false) :
    advance more (text ++ 0 :: behind) = some (text.dropWhile more ++ 0 :: behind) := by
  induction text with
  | nil => simp [advance, stops]
  | cons byte rest ih =>
      rw [List.cons_append, advance]
      cases going : more byte with
      | true => simpa [List.dropWhile_cons, going] using ih
      | false => simp [going]

theorem forall_byte (holds : UInt8 → Bool)
    (all : ((List.range 256).all fun code => holds code.toUInt8) = true) (byte : UInt8) :
    holds byte = true := by
  have checked := List.all_eq_true.mp all byte.toNat (List.mem_range.mpr byte.toNat_lt)
  simpa using checked

def tolower (byte : UInt8) : UInt8 :=
  if 65 ≤ byte ∧ byte ≤ 90 then byte + 32 else byte

/-- `strncasecmp(left, right, count) == 0` -/
def strncasecmpEq (left right : Bytes) (count : Nat) : Bool :=
  ((left ++ [0]).take count).map tolower == ((right ++ [0]).take count).map tolower

theorem strncasecmpEq_head {left right : Bytes} {count : Nat} (positive : 0 < count)
    (same : strncasecmpEq left right count = true) :
    (left ++ [0]).head?.map tolower = (right ++ [0]).head?.map tolower := by
  have heads := congrArg List.head? (eq_of_beq same)
  simpa [List.head?_map, List.head?_take, positive.ne'] using heads

def strchr (text : Bytes) (byte : UInt8) : Option Bytes :=
  match text.dropWhile (· ≠ byte) with
  | [] => none
  | found => some found

def digitsValue (digits : Bytes) : Nat :=
  digits.foldl (fun value digit => value * 10 + (digit.toNat - 48)) 0

/-- `strtoumax` on a sign and decimal digits: it saturates, and negates modulo its range. -/
def strtoumax (negative : Bool) (digits : Bytes) : Nat :=
  if 2 ^ 64 ≤ digitsValue digits then 2 ^ 64 - 1
  else if negative then (2 ^ 64 - digitsValue digits) % 2 ^ 64
  else digitsValue digits

/-- The conversion `%u` of `sscanf`: the value stored and the text behind it. -/
def scanUnsigned (text : Bytes) : Option (Nat × Bytes) :=
  let start := text.dropWhile isspace
  let signed := start.head? = some 45 ∨ start.head? = some 43
  let body := if signed then start.drop 1 else start
  let digits := body.takeWhile isdigit
  if digits.isEmpty then none
  else some (strtoumax (start.head? = some 45) digits % 2 ^ 32, body.dropWhile isdigit)

/-- `sscanf(line, "HTTP/%*u.%*u %u", &code) == 1`, with the code assigned. -/
def sscanfHttpStatus (line : Bytes) : Option Nat :=
  if (ascii "HTTP/").isPrefixOf line then
    match scanUnsigned (line.drop 5) with
    | some (_, 46 :: minor) =>
        match scanUnsigned minor with
        | some (_, rest) => (scanUnsigned (rest.dropWhile isspace)).map Prod.fst
        | none => none
    | _ => none
  else none

def decimal (value : Nat) : Bytes :=
  (Nat.toDigits 10 value).map fun digit => digit.toNat.toUInt8

def hex8 (value : Nat) : Bytes :=
  let digits := (Nat.toDigits 16 value).map fun digit => digit.toNat.toUInt8
  List.replicate (8 - digits.length) 48 ++ digits

def inetNtoa (address : SockaddrIn) : Bytes :=
  decimal address.a.toNat ++ [46] ++ decimal address.b.toNat ++ [46] ++
    decimal address.c.toNat ++ [46] ++ decimal address.d.toNat

/-- `snprintf("%s:%u", inet_ntoa(addr), ntohs(port))` -/
def hostPort (address : SockaddrIn) : Bytes :=
  inetNtoa address ++ [58] ++ decimal address.port.toNat

end ProxySet
