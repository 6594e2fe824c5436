import Mathlib.Data.List.Basic
import Mathlib.Tactic.Simps.Basic

/-!
The socket bufferevents of libevent 2.0.22 as redsocks uses them: the two
buffers, the enabled bits, the watermarks, the installed callbacks, and whether
the write event is waiting in the loop.  `rcvd` and `sent` are the bytes that
have crossed the socket so far; no function of the program reads them.
-/

namespace ProxySet

abbrev Bytes := List UInt8

instance : LawfulBEq Bytes := inferInstance

structure EvBits where
  read : Bool
  write : Bool
deriving DecidableEq, Repr

namespace EvBits

def none : EvBits := { read := false, write := false }

def evRead : EvBits := { read := true, write := false }

def evWrite : EvBits := { read := false, write := true }

def both : EvBits := { read := true, write := true }

@[simps]
def union (left right : EvBits) : EvBits :=
  { read := left.read || right.read, write := left.write || right.write }

@[simps]
def without (left right : EvBits) : EvBits :=
  { read := left.read && !right.read, write := left.write && !right.write }

end EvBits

structure Watermark where
  low : Nat
  high : Nat
deriving DecidableEq, Repr

/-- The functions redsocks installs as `readcb`; `subsys` is `relay_ss->readcb`. -/
inductive ReadCb where
  | none
  | subsys
  | httprClient
  | pump
deriving DecidableEq, Repr

inductive WriteCb where
  | none
  | connected
  | subsys
  | pump
deriving DecidableEq, Repr

structure Bufferevent where
  input : Bytes
  output : Bytes
  enabled : EvBits
  evWrite : Bool
  wmRead : Watermark
  wmWrite : Watermark
  readcb : ReadCb
  writecb : WriteCb
  rcvd : Bytes
  sent : Bytes
deriving DecidableEq, Repr

namespace Bufferevent

/-- `bufferevent_new`: `EV_WRITE` is set in `enabled`, but no event is added yet. -/
def new (readcb : ReadCb) (writecb : WriteCb) : Bufferevent :=
  { input := [], output := [], enabled := EvBits.evWrite, evWrite := false,
    wmRead := { low := 0, high := 0 }, wmWrite := { low := 0, high := 0 },
    readcb := readcb, writecb := writecb, rcvd := [], sent := [] }

def null : Bufferevent :=
  { new .none .none with enabled := EvBits.none }

@[simps]
def enable (buffer : Bufferevent) (events : EvBits) : Bufferevent :=
  { buffer with
    enabled := buffer.enabled.union events
    evWrite := buffer.evWrite || events.write }

@[simps]
def disable (buffer : Bufferevent) (events : EvBits) : Bufferevent :=
  { buffer with
    enabled := buffer.enabled.without events
    evWrite := buffer.evWrite && !events.write }

@[simps]
def setwatermark (buffer : Bufferevent) (events : EvBits) (low high : Nat) : Bufferevent :=
  { buffer with
    wmRead := if events.read then { low := low, high := high } else buffer.wmRead
    wmWrite := if events.write then { low := low, high := high } else buffer.wmWrite }

/-- `bufferevent_write`: data added to an enabled output starts the write event
(`bufferevent_socket_outbuf_cb`). -/
@[simps]
def write (buffer : Bufferevent) (data : Bytes) : Bufferevent :=
  { buffer with
    output := buffer.output ++ data
    evWrite := buffer.evWrite || (!data.isEmpty && buffer.enabled.write) }

/-- `bufferevent_inbuf_wm_cb`: reading is suspended while the input is at the high watermark. -/
def readSuspended (buffer : Bufferevent) : Bool :=
  buffer.wmRead.high != 0 && decide (buffer.wmRead.high ≤ buffer.input.length)

def canRead (buffer : Bufferevent) : Bool :=
  buffer.enabled.read && !buffer.readSuspended

/-- The read `bufferevent_readcb` makes is nonempty and stays within the high watermark. -/
def fits (buffer : Bufferevent) (chunk : Bytes) : Bool :=
  !chunk.isEmpty &&
    (buffer.wmRead.high == 0 || decide (buffer.input.length + chunk.length ≤ buffer.wmRead.high))

@[simps]
def receive (buffer : Bufferevent) (chunk : Bytes) : Bufferevent :=
  { buffer with input := buffer.input ++ chunk, rcvd := buffer.rcvd ++ chunk }

/-- What one `evbuffer_write_atmost` may send: some of a nonempty output, or nothing at all. -/
def mayTransmit (buffer : Bufferevent) (count : Nat) : Bool :=
  decide (count ≤ buffer.output.length) && (count != 0 || buffer.output.isEmpty)

/-- `evbuffer_write_atmost` in `bufferevent_writecb`; a drained output deletes the event. -/
@[simps]
def transmit (buffer : Bufferevent) (count : Nat) : Bufferevent :=
  { buffer with
    output := buffer.output.drop count
    sent := buffer.sent ++ buffer.output.take count
    evWrite := !(buffer.output.drop count).isEmpty }

end Bufferevent

end ProxySet
