import Mathlib.Data.List.DropRight
import ProxySet.Redsocks.TextCore

/-!
`http-auth.c` with the parts of `base64.c` and `md5.c` it uses: the credentials
redsocks puts behind `Proxy-Authorization:` for a stored challenge.
-/

namespace ProxySet

structure HttpAuth where
  lastAuthQuery : Option Bytes
  lastAuthCount : Nat
deriving DecidableEq, Repr

def authRequestHeader : Bytes := ascii "Proxy-Authenticate:"

def authResponseHeader : Bytes := ascii "Proxy-Authorization:"

def base64Alphabet : Bytes :=
  ascii "ABCDEFGHIJKLMNOPQRSTUVWXYZabcdefghijklmnopqrstuvwxyz0123456789+/"

/-- The `do` loop of `base64_encode`; a byte gives at most three digits. -/
def base64Digits (last : Bool) (bits : UInt32) : Nat → Int → Bytes × Int
  | 0, shift => ([], shift)
  | fuel + 1, shift =>
      let digit := base64Alphabet.getD
        (((bits <<< 6) >>> shift.toNat.toUInt32) &&& 0x3f).toNat 0
      if 6 < shift - 6 ∨ (last ∧ 0 < shift - 6) then
        let more := base64Digits last bits fuel (shift - 6)
        (digit :: more.1, more.2)
      else ([digit], shift - 6)

def base64Loop : UInt32 → Int → Bytes → Bytes
  | _, _, [] => []
  | bits, shift, byte :: rest =>
      let shifted := (bits <<< 8) + byte.toUInt32
      let digits := base64Digits rest.isEmpty shifted 3 (shift + 8)
      digits.1 ++ base64Loop shifted digits.2 rest

def base64Encode (data : Bytes) : Option Bytes :=
  if (2 ^ 32 - 1) / 4 ≤ data.length then none
  else
    let digits := base64Loop 0 0 data
    some (digits ++ List.replicate ((4 - digits.length % 4) % 4) 61)

def basicAuthenticationEncode (user passwd : Bytes) : Option Bytes :=
  base64Encode (user ++ [58] ++ passwd)

def md5T : List UInt32 := [
  0xd76aa478, 0xe8c7b756, 0x242070db, 0xc1bdceee, 0xf57c0faf, 0x4787c62a, 0xa8304613, 0xfd469501,
  0x698098d8, 0x8b44f7af, 0xffff5bb1, 0x895cd7be, 0x6b901122, 0xfd987193, 0xa679438e, 0x49b40821,
  0xf61e2562, 0xc040b340, 0x265e5a51, 0xe9b6c7aa, 0xd62f105d, 0x02441453, 0xd8a1e681, 0xe7d3fbc8,
  0x21e1cde6, 0xc33707d6, 0xf4d50d87, 0x455a14ed, 0xa9e3e905, 0xfcefa3f8, 0x676f02d9, 0x8d2a4c8a,
  0xfffa3942, 0x8771f681, 0x6d9d6122, 0xfde5380c, 0xa4beea44, 0x4bdecfa9, 0xf6bb4b60, 0xbebfbc70,
  0x289b7ec6, 0xeaa127fa, 0xd4ef3085, 0x04881d05, 0xd9d4d039, 0xe6db99e5, 0x1fa27cf8, 0xc4ac5665,
  0xf4292244, 0x432aff97, 0xab9423a7, 0xfc93a039, 0x655b59c3, 0x8f0ccc92, 0xffeff47d, 0x85845dd1,
  0x6fa87e4f, 0xfe2ce6e0, 0xa3014314, 0x4e0811a1, 0xf7537e82, 0xbd3af235, 0x2ad7d2bb, 0xeb86d391]

structure Md5State where
  a : UInt32
  b : UInt32
  c : UInt32
  d : UInt32
deriving DecidableEq, Repr

def rotateLeft (word : UInt32) (count : Nat) : UInt32 :=
  (word <<< count.toUInt32) ||| (word >>> (32 - count).toUInt32)

/-- Step `index` of the four rounds: the mixed value, the word taken, and the rotation. -/
def md5Round (state : Md5State) (index : Nat) : UInt32 × Nat × Nat :=
  let b := state.b
  let c := state.c
  let d := state.d
  if index < 16 then ((b &&& c) ||| (~~~b &&& d), index, [7, 12, 17, 22].getD (index % 4) 0)
  else if index < 32 then
    ((b &&& d) ||| (c &&& ~~~d), (1 + 5 * index) % 16, [5, 9, 14, 20].getD (index % 4) 0)
  else if index < 48 then (b ^^^ c ^^^ d, (5 + 3 * index) % 16, [4, 11, 16, 23].getD (index % 4) 0)
  else (c ^^^ (b ||| ~~~d), (7 * index) % 16, [6, 10, 15, 21].getD (index % 4) 0)

def md5Step (block : List UInt32) (state : Md5State) (index : Nat) : Md5State :=
  let (mixed, word, count) := md5Round state index
  let total := state.a + mixed + block.getD word 0 + md5T.getD index 0
  { a := state.d, b := state.b + rotateLeft total count, c := state.b, d := state.c }

def md5Process (state : Md5State) (block : List UInt32) : Md5State :=
  let final := (List.range 64).foldl (md5Step block) state
  { a := state.a + final.a, b := state.b + final.b, c := state.c + final.c, d := state.d + final.d }

def littleEndian (word : UInt32) : Bytes :=
  [word.toUInt8, (word >>> 8).toUInt8, (word >>> 16).toUInt8, (word >>> 24).toUInt8]

def md5Words : Nat → Bytes → List UInt32
  | fuel + 1, b0 :: b1 :: b2 :: b3 :: rest =>
      (b0.toUInt32 ||| (b1.toUInt32 <<< 8) ||| (b2.toUInt32 <<< 16) ||| (b3.toUInt32 <<< 24)) ::
        md5Words fuel rest
  | _, _ => []

def md5Blocks : Nat → List UInt32 → Md5State → Md5State
  | fuel + 1, words@(_ :: _), state => md5Blocks fuel (words.drop 16) (md5Process state (words.take 16))
  | _, _, state => state

def md5Pad (message : Bytes) : Bytes :=
  let bits := message.length * 8
  message ++ [0x80] ++ List.replicate ((119 - message.length % 64) % 64) 0 ++
    littleEndian (bits % 2 ^ 32).toUInt32 ++ littleEndian (bits / 2 ^ 32 % 2 ^ 32).toUInt32

def md5 (message : Bytes) : Bytes :=
  let padded := md5Pad message
  let final := md5Blocks padded.length (md5Words padded.length padded)
    { a := 0x67452301, b := 0xefcdab89, c := 0x98badcfe, d := 0x10325476 }
  littleEndian final.a ++ littleEndian final.b ++ littleEndian final.c ++ littleEndian final.d

def hexDigit (value : UInt8) : UInt8 :=
  if value < 10 then 48 + value else 87 + value

/-- `md5_finish` and `dump_hash`. -/
def md5Hex (message : Bytes) : Bytes :=
  (md5 message).flatMap fun byte : UInt8 => [hexDigit (byte >>> 4), hexDigit (byte &&& 15)]

/-- One name and value and the text behind them; `none` is both the end and an error. -/
def extractParam (source : Bytes) (separator : UInt8) : Option ((Bytes × Bytes) × Bytes) :=
  let start := source.dropWhile isspace
  let inName := fun byte : UInt8 => !isspace byte && byte != 61 && byte != separator
  let name := start.takeWhile inName
  if name.isEmpty then none
  else match (start.dropWhile inName).dropWhile isspace with
    | [] => some ((name, []), [])
    | mark :: behind =>
        if mark = separator then some ((name, []), behind)
        else if mark ≠ 61 then none
        else match behind.dropWhile isspace with
          | 34 :: quoted =>
              match quoted.dropWhile (· ≠ 34) with
              | [] => none
              | _ :: closed =>
                  some ((name, quoted.takeWhile (· ≠ 34)),
                    ((closed.dropWhile isspace).dropWhile (· ≠ separator)).drop 1)
          | plain =>
              some ((name, (plain.takeWhile (· ≠ separator)).rdropWhile isspace),
                (plain.dropWhile (· ≠ separator)).drop 1)

structure DigestParams where
  realm : Option Bytes
  opaqueText : Option Bytes
  nonce : Option Bytes
  qop : Option Bytes
deriving DecidableEq, Repr

/-- `strncasecmp(name.b, key, namelen) == 0` -/
def paramNamed (name : Bytes) (key : String) : Bool :=
  strncasecmpEq name (ascii key) name.length

def DigestParams.set (params : DigestParams) (name value : Bytes) : DigestParams :=
  if paramNamed name "realm" then { params with realm := some value }
  else if paramNamed name "opaque" then { params with opaqueText := some value }
  else if paramNamed name "nonce" then { params with nonce := some value }
  else if paramNamed name "qop" then { params with qop := some value }
  else params

/-- The `while` loop of `digest_authentication_encode`; a parameter takes at least one byte. -/
def digestParams : Nat → Bytes → DigestParams → DigestParams
  | 0, _, params => params
  | fuel + 1, line, params =>
      match extractParam line 44 with
      | none => params
      | some ((name, value), rest) => digestParams fuel rest (params.set name value)

def colon : Bytes := [58]

def quoted (text : Bytes) : Bytes := [34] ++ text ++ [34]

def digestResponse (user passwd method path cnonce nc realm nonce : Bytes) (qop : Option Bytes) :
    Bytes :=
  let a1 := md5Hex (user ++ colon ++ realm ++ colon ++ passwd)
  let a2 := md5Hex (method ++ colon ++ path)
  let middle := match qop with
    | some qop => nc ++ colon ++ cnonce ++ colon ++ qop ++ colon
    | none => []
  md5Hex (a1 ++ colon ++ nonce ++ colon ++ middle ++ a2)

def digestAuthenticationEncode (line user passwd method path : Bytes) (count : Nat)
    (cnonce : Bytes) : Option Bytes :=
  let nc := hex8 count
  let params := digestParams line.length line
    { realm := none, opaqueText := none, nonce := none, qop := none }
  match params.realm, params.nonce with
  | some realm, some nonce =>
      if params.qop.any fun qop => !strncasecmpEq qop (ascii "auth") 5 then none
      else
        let response := digestResponse user passwd method path cnonce nc realm nonce params.qop
        let fields := ascii "username=" ++ quoted user ++ ascii ", realm=" ++ quoted realm ++
          ascii ", nonce=" ++ quoted nonce ++ ascii ", uri=" ++ quoted path ++
          ascii ", response=" ++ quoted response
        let counted := match params.qop with
          | some qop => ascii ", qop=" ++ qop ++ ascii ", nc=" ++ nc ++ ascii ", cnonce=" ++
              quoted cnonce
          | none => []
        let tail := match params.opaqueText with
          | some value => ascii ", opaque=" ++ quoted value
          | none => []
        some (fields ++ counted ++ tail)
  | _, _ => none

/-- `snprintf(cnounce, sizeof(cnounce), "%08x%08x", red_randui32(), red_randui32())` -/
def cnounce (env : Env) : Bytes :=
  hex8 env.random.1.toNat ++ hex8 env.random.2.toNat

end ProxySet
