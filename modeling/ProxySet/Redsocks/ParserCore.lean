import ProxySet.Redsocks.TextCore

/-!
The configuration parser of redsocks, `parser.c`.  `parser_run` reads a file
line by line into a buffer that doubles when a line does not fit, cuts tokens
from the front of the buffer and drives the sections that are registered with
the parser.  Memory is whatever the sections and their entries write to.
-/

namespace ProxySet

def isalpha (byte : UInt8) : Bool :=
  (decide (65 ≤ byte) && decide (byte ≤ 90)) || (decide (97 ≤ byte) && decide (byte ≤ 122))

def isalnum (byte : UInt8) : Bool :=
  isalpha byte || isdigit byte

/-! ### Tokens -/

inductive Copytype where
  | cstr
  | plainstr
  deriving DecidableEq

/-- What `gettoken` leaves: NULL, NULL after `parser_error`, or a token; `iter` is the text in
front of the scan position. -/
inductive Gettoken where
  | incomplete (iter : Bytes)
  | invalid (message : Bytes) (iter : Bytes)
  | token (copytype : Copytype) (text : Bytes) (iter : Bytes)
  deriving DecidableEq

def unescape : UInt8 → UInt8
  | 110 => 10
  | 116 => 9
  | 114 => 13
  | 92 => 92
  | 39 => 39
  | 34 => 34
  | _ => 0

inductive Quoted where
  | open
  | badEscape
  | closed (text : Bytes) (rest : Bytes)
  deriving DecidableEq

def Quoted.push (byte : UInt8) : Quoted → Quoted
  | .open => .open
  | .badEscape => .badEscape
  | .closed text rest => .closed (byte :: text) rest

/-- A string from behind its opening quote: the counting pass and the copying pass of `gettoken`
stop at the same quote, so they are one scan here. -/
def scanQuoted : Bytes → Quoted
  | [] => .open
  | byte :: rest =>
      if byte = 34 then .closed [] rest
      else if byte = 92 then
        match rest with
        | [] => .open
        | escaped :: behind =>
            if unescape escaped = 0 then .badEscape
            else (scanQuoted behind).push (unescape escaped)
      else (scanQuoted rest).push byte

def isWordByte (byte : UInt8) : Bool :=
  isalnum byte || byte == 95 || byte == 46 || byte == 45

/-- A plain token ends at the first byte that cannot belong to it; the end of the buffer does not
end it. -/
def scanWord : Bytes → Option (Bytes × Bytes)
  | [] => none
  | byte :: rest =>
      if isWordByte byte then (scanWord rest).map fun found => (byte :: found.1, found.2)
      else some ([], byte :: rest)

/-- `integer OR IP/NETMASK`; a slash belongs to it in front of a digit only. -/
def scanNumber : Bytes → Option (Bytes × Bytes)
  | [] => none
  | byte :: rest =>
      if isdigit byte || byte == 46 then
        (scanNumber rest).map fun found => (byte :: found.1, found.2)
      else if byte = 47 then
        match rest with
        | [] => none
        | after :: _ =>
            if isdigit after then (scanNumber rest).map fun found => (byte :: found.1, found.2)
            else if after = 47 ∨ after = 42 then some ([], byte :: rest)
            else none
      else some ([], byte :: rest)

def isPunctuation (byte : UInt8) : Bool :=
  byte == 123 || byte == 125 || byte == 61 || byte == 59

def plainToken (start : Bytes) : Option (Bytes × Bytes) → Gettoken
  | none => .incomplete start
  | some (text, rest) => .token .plainstr text rest

def tokenAt (start : Bytes) : Gettoken :=
  match start with
  | [] => .incomplete []
  | byte :: rest =>
      if byte = 34 then
        match scanQuoted rest with
        | .open => .incomplete start
        | .badEscape => .invalid (ascii "unknown escaped char after \\") start
        | .closed text behind => .token .cstr text behind
      else if isdigit byte then plainToken start (scanNumber start)
      else if isalpha byte then plainToken start (scanWord start)
      else if isPunctuation byte then .token .plainstr [byte] rest
      else if byte = 47 ∧ (rest.head? = some 47 ∨ rest.head? = some 42) then
        .token .plainstr (start.take 2) (start.drop 2)
      else .invalid (ascii "unexpected char") start

def gettoken (iter : Bytes) : Gettoken :=
  tokenAt (iter.dropWhile isspace)

/-! ### Values -/

inductive ParserType where
  | bool
  | pchar
  | uint16
  | inAddr
  | inAddr2
  deriving DecidableEq

inductive ParserValue where
  | bool (value : Bool)
  | pchar (text : Bytes)
  | uint16 (value : Nat)
  | inAddr (address : Nat)
  | inAddr2 (net : Nat) (netmask : Option Nat)
  deriving DecidableEq

/-- What the value parsers need of the system: the width of `unsigned long`, and the address that
is picked from what `getaddrinfo` finds, or its error text. -/
structure Platform where
  longBits : Nat
  resolve : Bytes → Except Bytes Nat

def digitValue (byte : UInt8) : Nat :=
  if isdigit byte then byte.toNat - 48
  else if 97 ≤ byte ∧ byte ≤ 102 then byte.toNat - 87
  else if 65 ≤ byte ∧ byte ≤ 70 then byte.toNat - 55
  else 255

def digitsIn (base : Nat) (text : Bytes) : Bytes :=
  text.takeWhile fun byte => decide (digitValue byte < base)

def valueIn (base : Nat) (digits : Bytes) : Nat :=
  digits.foldl (fun value digit => value * base + digitValue digit) 0

/-- The base that `0x` or `0` in front of a number selects, and the digits behind the mark. -/
def numberBase (text : Bytes) : Nat × Bytes :=
  match text with
  | 48 :: mark :: digit :: rest =>
      if (mark = 120 ∨ mark = 88) ∧ digitValue digit < 16 then (16, digit :: rest) else (8, text)
  | 48 :: _ => (8, text)
  | _ => (10, text)

/-- `strtoul(text, &end, 0)`: the value and the text at `end`. -/
def strtoul (platform : Platform) (text : Bytes) : Nat × Bytes :=
  let start := text.dropWhile isspace
  let signed := start.head? = some 45 ∨ start.head? = some 43
  let number := numberBase (if signed then start.drop 1 else start)
  let digits := digitsIn number.1 number.2
  let value := valueIn number.1 digits
  let range := 2 ^ platform.longBits
  if digits.isEmpty then (0, text)
  else
    (if range ≤ value then range - 1
      else if start.head? = some 45 then (range - value) % range
      else value, number.2.drop digits.length)

def inetNumber (text : Bytes) : Option (Nat × Bytes) :=
  if (text.head?.any isdigit) = true then
    let number := numberBase text
    let digits := digitsIn number.1 number.2
    some (valueIn number.1 digits, number.2.drop digits.length)
  else none

def inetParts : Nat → Bytes → Option (List Nat × Bytes)
  | 0, _ => none
  | more + 1, text =>
      match inetNumber text with
      | none => none
      | some (value, 46 :: rest) =>
          (inetParts more rest).map fun found => (value :: found.1, found.2)
      | some (value, rest) => some ([value], rest)

/-- `inet_aton`: up to four numbers, the last of which fills the remaining bytes. -/
def inetAton (text : Bytes) : Option Nat :=
  match inetParts 4 text with
  | none => none
  | some (parts, rest) =>
      if (rest.head?.all isspace) = true then
        match parts with
        | [a] => if a < 2 ^ 32 then some a else none
        | [a, b] => if a < 256 ∧ b < 2 ^ 24 then some (a * 2 ^ 24 + b) else none
        | [a, b, c] =>
            if a < 256 ∧ b < 256 ∧ c < 2 ^ 16 then some (a * 2 ^ 24 + b * 2 ^ 16 + c) else none
        | [a, b, c, d] =>
            if a < 256 ∧ b < 256 ∧ c < 256 ∧ d < 256 then
              some (a * 2 ^ 24 + b * 2 ^ 16 + c * 2 ^ 8 + d)
            else none
        | _ => none
      else none

def vpPbool (token : Bytes) : Except (List Bytes) ParserValue :=
  if token ∈ [ascii "ok", ascii "on", ascii "yes", ascii "true"] then .ok (.bool true)
  else if token ∈ [ascii "off", ascii "no", ascii "false"] then .ok (.bool false)
  else .error [ascii "boolean is not parsed"]

def vpPchar (token : Bytes) : Except (List Bytes) ParserValue :=
  .ok (.pchar token)

def vpUint16 (platform : Platform) (token : Bytes) : Except (List Bytes) ParserValue :=
  let parsed := strtoul platform token
  if 0xFFFF < parsed.1 then .error [ascii "integer out of 16bit range"]
  else if parsed.2 ≠ [] then .error [ascii "integer is not parsed"]
  else .ok (.uint16 parsed.1)

def vpInAddr (platform : Platform) (token : Bytes) : Except (List Bytes) ParserValue :=
  match inetAton token with
  | some address => .ok (.inAddr address)
  | none =>
      match platform.resolve token with
      | .ok address => .ok (.inAddr address)
      | .error reason => .error [ascii "unable to resolve " ++ token ++ ascii ", " ++ reason]

def netmaskBits (bits : Nat) : Nat :=
  2 ^ 32 - 2 ^ (32 - bits)

def vpNetmask (platform : Platform) (mask : Bytes) : Except Bytes Nat :=
  let parsed := strtoul platform mask
  if parsed.2.head? = some 46 then
    match inetAton mask with
    | some address => .ok address
    | none => .error (ascii "invalid IP address")
  else if 0 < parsed.1 ∧ parsed.1 < 32 then .ok (netmaskBits parsed.1)
  else .error (ascii "number of netmask bits out of range")

/-- The mask is looked at even where the address is bad, so there may be two messages. -/
def vpInAddr2 (platform : Platform) (token : Bytes) : Except (List Bytes) ParserValue :=
  let host := token.takeWhile (· ≠ 47)
  let badHost := if (inetAton host).isSome then [] else [ascii "invalid IP address"]
  match strchr token 47 with
  | none =>
      match inetAton host with
      | some net => .ok (.inAddr2 net none)
      | none => .error badHost
  | some slash =>
      match inetAton host, vpNetmask platform (slash.drop 1) with
      | some net, .ok mask => .ok (.inAddr2 net (some mask))
      | _, .ok _ => .error badHost
      | _, .error message => .error (badHost ++ [message])

def valueParserByType (platform : Platform) : ParserType → Bytes → Except (List Bytes) ParserValue
  | .bool => vpPbool
  | .pchar => vpPchar
  | .uint16 => vpUint16 platform
  | .inAddr => vpInAddr platform
  | .inAddr2 => vpInAddr2 platform

/-! ### Sections -/

structure ParserEntry (Memory : Type) where
  key : Bytes
  type : ParserType
  /-- The write through `addr`, which the section's `onenter` may have set. -/
  store : ParserValue → Memory → Memory

/-- A callback that returns -1 has told the user why through `parser_error`. -/
structure ParserSection (Memory : Type) where
  name : Bytes
  onenter : Option (Memory → Except Bytes Memory)
  onexit : Option (Memory → Except Bytes Memory)
  entries : List (ParserEntry Memory)

inductive ParserCall where
  | onenter (sectionName : Bytes)
  | value (sectionName key token : Bytes)
  | onexit (sectionName : Bytes)
  deriving DecidableEq

/-- The locals of `parser_run` that its tokens change, with what the calls did so far. -/
structure ParserVars (Memory : Type) where
  parserSection : Option (ParserSection Memory)
  sectionToken : Option Bytes
  keyToken : Option Bytes
  valueToken : Option Bytes
  memory : Memory
  calls : List ParserCall
  errors : List Bytes
  /-- `assert(false)`, or a pointer computed from NULL. -/
  aborted : Bool

variable {Memory : Type}

namespace ParserVars

def start (memory : Memory) : ParserVars Memory where
  parserSection := none
  sectionToken := none
  keyToken := none
  valueToken := none
  memory := memory
  calls := []
  errors := []
  aborted := false

def error (vars : ParserVars Memory) : Bool :=
  !vars.errors.isEmpty

def stopped (vars : ParserVars Memory) : Bool :=
  vars.error || vars.aborted

def parserError (vars : ParserVars Memory) (message : Bytes) : ParserVars Memory :=
  { vars with errors := vars.errors ++ [message] }

def callback (vars : ParserVars Memory) (hook : Option (Memory → Except Bytes Memory))
    (call : ParserCall) (failed : Bytes) : ParserVars Memory :=
  match hook with
  | none => vars
  | some action =>
      match action vars.memory with
      | .ok memory => { vars with memory := memory, calls := vars.calls ++ [call] }
      | .error message =>
          { vars with calls := vars.calls ++ [call], errors := vars.errors ++ [message, failed] }

def openSection (sections : List (ParserSection Memory)) (vars : ParserVars Memory) :
    ParserVars Memory :=
  match vars.parserSection, vars.sectionToken with
  | some _, _ => vars.parserError (ascii "section-in-section is invalid")
  | none, none => vars.parserError (ascii "expected token before ``\x7b''")
  | none, some name =>
      match sections.find? (·.name == name) with
      | some found =>
          { vars with parserSection := some found, sectionToken := none }.callback found.onenter
            (.onenter found.name) (ascii "section->onenter failed")
      | none =>
          { vars with sectionToken := none }.parserError
            (ascii "unknown section <" ++ name ++ ascii ">")

def closeSection (vars : ParserVars Memory) : ParserVars Memory :=
  match vars.parserSection with
  | some current =>
      { vars.callback current.onexit (.onexit current.name) (ascii "section->onexit failed") with
        parserSection := none }
  | none => vars.parserError (ascii "can't close non-opened section")

def assignment (vars : ParserVars Memory) : ParserVars Memory :=
  match vars.parserSection, vars.keyToken with
  | none, _ => vars.parserError (ascii "assignment used outside of any section")
  | some _, none => vars.parserError (ascii "assignment used without key")
  | some _, some _ => vars

def assign (platform : Platform) (vars : ParserVars Memory) (current : ParserSection Memory)
    (key value : Bytes) : ParserVars Memory :=
  match current.entries.find? (·.key == key) with
  | none => vars.parserError (ascii "assignment with unknown key <" ++ key ++ ascii ">")
  | some entry =>
      let called := { vars with calls := vars.calls ++ [ParserCall.value current.name key value] }
      match valueParserByType platform entry.type value with
      | .ok parsed => { called with memory := entry.store parsed vars.memory }
      | .error messages =>
          { called with errors := vars.errors ++ messages ++ [ascii "value can't be parsed"] }

def clearAssignment (vars : ParserVars Memory) : ParserVars Memory :=
  { vars with keyToken := none, valueToken := none }

def terminate (platform : Platform) (vars : ParserVars Memory) : ParserVars Memory :=
  match vars.parserSection, vars.keyToken, vars.valueToken with
  | none, _, _ =>
      (vars.parserError (ascii "assignment termination outside of any section")).clearAssignment
  | some _, some _, none =>
      (vars.parserError (ascii "assignment has only key but no value")).clearAssignment
  | some current, some key, some value => (vars.assign platform current key value).clearAssignment
  | some _, none, _ => { vars with aborted := true }

def word (vars : ParserVars Memory) (text : Bytes) : ParserVars Memory :=
  match vars.parserSection, vars.sectionToken, vars.keyToken, vars.valueToken with
  | none, none, _, _ => { vars with sectionToken := some text }
  | some _, _, none, _ => { vars with keyToken := some text }
  | some _, _, some _, none => { vars with valueToken := some text }
  | _, _, _, _ => vars.parserError (ascii "invalid token order")

/-- The chain of `strcmp` of `parser_run` from `{` on. -/
def token (platform : Platform) (sections : List (ParserSection Memory)) (vars : ParserVars Memory)
    (text : Bytes) : ParserVars Memory :=
  if text = [123] then vars.openSection sections
  else if text = [125] then vars.closeSection
  else if text = [61] then vars.assignment
  else if text = [59] then vars.terminate platform
  else vars.word text

def errorIf (vars : ParserVars Memory) (stale : Bool) (message : Bytes) : ParserVars Memory :=
  if stale then vars.parserError message else vars

def finish (vars : ParserVars Memory) : ParserVars Memory :=
  (((vars.errorIf vars.parserSection.isSome (ascii "unclosed section")).errorIf
    vars.sectionToken.isSome (ascii "stale section_token")).errorIf
    vars.keyToken.isSome (ascii "stale key_token")).errorIf
    vars.valueToken.isSome (ascii "stale value_token")

end ParserVars

/-! ### The loop -/

def afterComment : Bytes → Option Bytes
  | [] => none
  | 42 :: 47 :: rest => some rest
  | _ :: rest => afterComment rest

structure ParserState (Memory : Type) where
  vars : ParserVars Memory
  /-- `buffer.data` up to `buffer.filled` -/
  data : Bytes
  size : Nat
  file : Bytes
  eof : Bool
  inComment : Bool
  needMoreSpace : Bool
  needMoreData : Bool
  /-- The tokens that the loop has handled, comment marks apart. -/
  tokens : List Bytes

def untilNewline : Bytes → Bytes
  | [] => []
  | byte :: rest => if byte = 10 then [10] else byte :: untilNewline rest

/-- What `fgets` stores for a buffer of `size` bytes; a size of one leaves no room to read. -/
def fgetsLine (size : Nat) (file : Bytes) : Bytes :=
  untilNewline (file.take (size - 1))

/-- The end of the file is noticed by an attempt to read behind it. -/
def fgetsEof (size : Nat) (file : Bytes) : Bool :=
  decide ((fgetsLine size file).length < size - 1) && (fgetsLine size file).getLast? != some 10

def tokenLoop (platform : Platform) (sections : List (ParserSection Memory)) :
    Nat → ParserState Memory → ParserState Memory
  | 0, state => state
  | fuel + 1, state =>
      if state.vars.stopped || state.inComment then state
      else match gettoken state.data with
        | .incomplete iter => { state with data := iter, needMoreData := true }
        | .invalid message iter =>
            { state with data := iter, vars := state.vars.parserError message, needMoreData := true }
        | .token _ text iter =>
            if text = [47, 47] then
              match strchr iter 10 with
              | some endc => tokenLoop platform sections fuel { state with data := endc.drop 1 }
              | none => { state with vars := { state.vars with aborted := true } }
            else if text = [47, 42] then
              { state with data := iter, inComment := true }
            else
              tokenLoop platform sections fuel
                { state with
                  data := iter
                  vars := state.vars.token platform sections text
                  tokens := state.tokens ++ [text] }

def handleLine (platform : Platform) (sections : List (ParserSection Memory))
    (state : ParserState Memory) : ParserState Memory :=
  if state.inComment then
    match afterComment state.data with
    | some rest =>
        tokenLoop platform sections (rest.length + 1)
          { state with data := rest, inComment := false }
    | none => { state with data := [], needMoreData := true }
  else tokenLoop platform sections (state.data.length + 1) state

def growBuffer (state : ParserState Memory) : ParserState Memory :=
  if state.needMoreSpace then { state with size := state.size * 2, needMoreSpace := false }
  else state

def readLine (platform : Platform) (sections : List (ParserSection Memory))
    (state : ParserState Memory) : ParserState Memory :=
  let room := state.size - state.data.length
  let line := fgetsLine room state.file
  let eof := fgetsEof room state.file
  if eof && line.isEmpty then { state with eof := true }
  else
    let text := cstr line
    let filled :=
      { state with data := state.data ++ text, file := state.file.drop line.length, eof := eof }
    if text.getLast? = some 10 then
      handleLine platform sections { filled with needMoreData := false }
    else { filled with needMoreSpace := true }

def parserIteration (platform : Platform) (sections : List (ParserSection Memory))
    (state : ParserState Memory) : ParserState Memory :=
  -- `assert(context->buffer.filled < context->buffer.size)`
  if state.size ≤ state.data.length then
    { state with vars := { state.vars with aborted := true } }
  else
    let grown := growBuffer state
    if grown.needMoreData then readLine platform sections grown
    else handleLine platform sections grown

def ParserState.done (state : ParserState Memory) : Bool :=
  state.vars.stopped || state.eof

def parserLoop (platform : Platform) (sections : List (ParserSection Memory)) :
    Nat → ParserState Memory → ParserState Memory
  | 0, state => state
  | fuel + 1, state =>
      if state.done then state
      else parserLoop platform sections fuel (parserIteration platform sections state)

def parserStart (memory : Memory) (file : Bytes) : ParserState Memory where
  vars := .start memory
  data := []
  size := 256
  file := file
  eof := false
  inComment := false
  needMoreSpace := false
  needMoreData := true
  tokens := []

def parserFuel (file : Bytes) : Nat :=
  4 * file.length + 3

structure ParserResult (Memory : Type) where
  vars : ParserVars Memory
  tokens : List Bytes

/-- The value `parser_run` returns; an aborted program returns none. -/
def ParserResult.returned (result : ParserResult Memory) : Option Int :=
  if result.vars.aborted then none
  else if result.vars.error then some (-1)
  else some 0

def parserRun (platform : Platform) (sections : List (ParserSection Memory)) (memory : Memory)
    (file : Bytes) : ParserResult Memory :=
  let final := parserLoop platform sections (parserFuel file) (parserStart memory file)
  { vars := final.vars.finish, tokens := final.tokens }

end ProxySet
