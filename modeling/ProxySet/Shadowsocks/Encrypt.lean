import ProxySet.Lib.StableSort
import ProxySet.Lib.StreamCoder
import ProxySet.Redsocks.TextCore

/-!
`encrypt.c` of the shadowsocks client, with the RC4 of the bundled OpenSSL.  A
connection has one context for each direction; the byte tables of the other method
are global and do not change.  `hash` is the MD5 digest of the password.
-/

namespace ProxySet.Shadowsocks

open StableSort

/-- `random_compare`, with the globals `_a` and `_i`. -/
def randomCompare (a : UInt64) (i : UInt32) (x y : UInt8) : Int :=
  cInt (a % (x.toUInt32 + i).toUInt64 - a % (y.toUInt32 + i).toUInt64).toNat

def merge (compare : UInt8 → UInt8 → Int) : Bytes → Bytes → Bytes
  | [], right => right
  | left, [] => left
  | ll :: left, rr :: right =>
      if compare ll rr ≤ 0 then ll :: merge compare left (rr :: right)
      else rr :: merge compare (ll :: left) right
termination_by left right => left.length + right.length

/-- `middle` is a byte. -/
def mergesort (compare : UInt8 → UInt8 → Int) : Nat → Bytes → Option Bytes
  | 0, _ => none
  | fuel + 1, array =>
      if array.length ≤ 1 then some array
      else
        let middle := array.length / 2 % 256
        let llength := array.length - middle
        (mergesort compare fuel (array.take llength)).bind fun left =>
          (mergesort compare fuel (array.drop llength)).map fun right => merge compare left right

structure Tables where
  encryptTable : Bytes
  decryptTable : Bytes
deriving DecidableEq, Repr

/-- The first eight bytes of the digest, the least one first. -/
def leadingWord (hash : Bytes) : UInt64 :=
  ((hash.take 8).foldr (fun (byte : UInt8) word => word * 256 + byte.toNat) 0).toUInt64

def identityTable : Bytes :=
  (List.range 256).map Nat.toUInt8

def decryptTableOf (encryptTable : Bytes) : Bytes :=
  (List.range 256).foldl (fun table i => table.set (encryptTable.getD i 0).toNat i.toUInt8)
    (List.replicate 256 0)

def tablesOf (encryptTable : Bytes) : Tables :=
  { encryptTable := encryptTable, decryptTable := decryptTableOf encryptTable }

def getTable (hash : Bytes) : Option Tables :=
  ((List.range' 1 1023).foldlM (fun table i =>
      mergesort (randomCompare (leadingWord hash) i.toUInt32) 256 table) identityTable).map tablesOf

structure Rc4Key where
  x : UInt8
  y : UInt8
  data : Bytes
deriving DecidableEq, Repr

def skLoop (key : Bytes) (state : Bytes × Nat × UInt8) (n : Nat) : Bytes × Nat × UInt8 :=
  let tmp := state.1.getD n 0
  let id2 := key.getD state.2.1 0 + tmp + state.2.2
  let id1 := if state.2.1 + 1 = key.length then 0 else state.2.1 + 1
  ((state.1.set n (state.1.getD id2.toNat 0)).set id2.toNat tmp, id1, id2)

def rc4SetKey (key : Bytes) : Rc4Key :=
  { x := 0
    y := 0
    data := ((List.range 256).foldl (skLoop key) (identityTable, 0, 0)).1 }

def rc4Loop (key : Rc4Key) (byte : UInt8) : UInt8 × Rc4Key :=
  let x := key.x + 1
  let tx := key.data.getD x.toNat 0
  let y := tx + key.y
  let ty := key.data.getD y.toNat 0
  let data := (key.data.set x.toNat ty).set y.toNat tx
  (data.getD (tx + ty).toNat 0 ^^^ byte, { x := x, y := y, data := data })

inductive Method where
  | table
  | rc4
deriving DecidableEq, Repr

/-- What a direction encrypts with: the tables where the context is `NULL`. -/
inductive Ctx where
  | table (tables : Tables)
  | rc4 (key : Rc4Key)
deriving DecidableEq, Repr

def encryptByte : Ctx → UInt8 → UInt8 × Ctx
  | .table tables, byte => (tables.encryptTable.getD byte.toNat 0, .table tables)
  | .rc4 key, byte => ((rc4Loop key byte).1, .rc4 (rc4Loop key byte).2)

def decryptByte : Ctx → UInt8 → UInt8 × Ctx
  | .table tables, byte => (tables.decryptTable.getD byte.toNat 0, .table tables)
  | .rc4 key, byte => ((rc4Loop key byte).1, .rc4 (rc4Loop key byte).2)

def encrypt : StreamCoder Ctx UInt8 UInt8 := { next := encryptByte }

def decrypt : StreamCoder Ctx UInt8 UInt8 := { next := decryptByte }

/-- The context of either direction of a new connection: `get_table` has run in `main`, and
`enc_ctx_init` takes the digest for the key. -/
def newCtx (method : Method) (hash : Bytes) : Option Ctx :=
  match method with
  | .table => (getTable hash).map .table
  | .rc4 => some (.rc4 (rc4SetKey hash))

end ProxySet.Shadowsocks
